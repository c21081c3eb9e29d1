import LedSketch.Proofs.Sketch.Arguments
import LedSketch.Proofs.Sketch.CodeText

namespace LedSketch.Sketch

/-!
# The literals of parameter lists

A parameter that is reduced to its name and its default keeps the literals of the default.
So a list of parameters keeps all literals if each of them is in the default of a parameter
with a name, and has no comma.
-/

/-- Text that is trimmed has lost blanks in front of it and behind it. -/
theorem exists_append_trim (text : List Char) :
    ∃ front back,
      text = front ++ Text.trim text ++ back ∧
        (∀ c ∈ front, Text.isBlank c = true) ∧ ∀ c ∈ back, Text.isBlank c = true := by
  have blanks {text : List Char} : ∀ c ∈ text.takeWhile Text.isBlank, Text.isBlank c = true :=
    fun c member => List.mem_takeWhile_imp member
  have begins : text = text.takeWhile Text.isBlank ++ text.dropWhile Text.isBlank :=
    List.takeWhile_append_dropWhile.symm
  have ends {text : List Char} :
      text = (text.reverse.dropWhile Text.isBlank).reverse ++
        (text.reverse.takeWhile Text.isBlank).reverse := by
    rw [← List.reverse_append, List.takeWhile_append_dropWhile, List.reverse_reverse]
  refine ⟨text.takeWhile Text.isBlank,
    ((text.dropWhile Text.isBlank).reverse.takeWhile Text.isBlank).reverse, ?_, blanks,
    fun c member => blanks c (List.mem_reverse.mp member)⟩
  rw [List.append_assoc, Text.trim, ← ends]
  exact begins

theorem isPlain_of_isBlank
    {c : Char}
    (isBlank : Text.isBlank c = true) :
    isPlain c = true := by
  have neutral := Lexical.isNeutral_of_isBlank isBlank
  simp only [Lexical.isNeutral, ne_eq, Bool.and_eq_true, decide_eq_true_eq] at neutral
  simp [isPlain, isUnquoted, neutral]

theorem isPlain_of_isNameChar
    {c : Char}
    (isName : Text.isNameChar c = true) :
    isPlain c = true := by
  have neutral :=
    Lexical.isNeutral_of_isNumberChar (Script.Lexeme.isNumberChar_of_isNameChar isName)
  simp only [Lexical.isNeutral, ne_eq, Bool.and_eq_true, decide_eq_true_eq] at neutral
  simp [isPlain, isUnquoted, neutral]

/-- Blanks around a text have no literals. -/
theorem CodeText.trim
    {following other : Option Char}
    {text : List Char}
    {literals : List (List Char)}
    (code : CodeText following text literals)
    (nothing : opensNothing other) :
    CodeText other (Text.trim text) literals := by
  obtain ⟨front, back, whole, blankFront, blankBack⟩ := exists_append_trim text
  have unquoted {blanks : List Char} (blank : ∀ c ∈ blanks, Text.isBlank c = true) :
      ∀ c ∈ blanks, isUnquoted c = true :=
    fun c member => isUnquoted_of_isPlain (isPlain_of_isBlank (blank c member))
  rw [whole, List.append_assoc] at code
  obtain ⟨_, codeRest⟩ := code.split_unquoted_left (unquoted blankFront)
  exact (codeRest.split_unquoted_right (unquoted blankBack)).1.follow nothing

/-- What is dropped in front of a text has no part in what is picked out of it. -/
theorem filter_dropWhile
    {drops picks : Char → Bool}
    (apart : ∀ c, drops c = true → picks c = false)
    (text : List Char) :
    (text.dropWhile drops).filter picks = text.filter picks := by
  induction text with
  | nil => rfl
  | cons c rest inductionHypothesis =>
      cases dropped : drops c with
      | true =>
          rw [List.dropWhile_cons_of_pos dropped, inductionHypothesis,
            List.filter_cons_of_neg (by simp [apart c dropped])]
      | false => rw [List.dropWhile_cons_of_neg (by simp [dropped])]

/-- A text keeps the characters of its names when it is trimmed. -/
theorem filter_isNameChar_trim (text : List Char) :
    (Text.trim text).filter Text.isNameChar = text.filter Text.isNameChar := by
  unfold Text.trim
  rw [List.filter_reverse, filter_dropWhile fun _ => Script.not_isNameChar_of_isBlank,
    List.filter_reverse, List.reverse_reverse,
    filter_dropWhile fun _ => Script.not_isNameChar_of_isBlank]

theorem filter_isNameChar_dropBracketPairs (text : List Char) :
    (dropBracketPairs text).filter Text.isNameChar = text.filter Text.isNameChar := by
  fun_induction dropBracketPairs text with
  | case1 rest inductionHypothesis => exact inductionHypothesis
  | case2 text => rfl

/-- Where a character of a name is there is a last name. -/
theorem exists_lastName?
    {backwards : List Char}
    (hasName : backwards.filter Text.isNameChar ≠ []) :
    ∃ name, lastName? backwards = some name := by
  obtain ⟨c, more, isRest⟩ :
      ∃ c more, backwards.dropWhile (fun c => !Text.isNameChar c) = c :: more := by
    refine List.exists_cons_of_ne_nil fun none => hasName ?_
    rw [List.dropWhile_eq_nil_iff] at none
    exact List.filter_eq_nil_iff.mpr fun c member => by simpa using none c member
  have isName : Text.isNameChar c = true := by
    have stopped := List.head?_dropWhile_not (fun c => !Text.isNameChar c) backwards
    rw [isRest] at stopped
    simpa using stopped
  refine ⟨(c :: more.takeWhile Text.isNameChar).reverse, ?_⟩
  unfold lastName?
  dsimp only
  rw [isRest, List.takeWhile_cons_of_pos isName]
  rfl

theorem isNameChar_of_lastName?
    {backwards name : List Char}
    (found : lastName? backwards = some name) :
    ∀ c ∈ name, Text.isNameChar c = true := by
  unfold lastName? at found
  dsimp only at found
  split at found
  · contradiction
  · cases found
    exact fun c member => List.mem_takeWhile_imp (List.mem_reverse.mp member)

/-- What a parameter declares stands in front of its first equals sign. -/
def declaredPart (parameter : List Char) : List Char := parameter.takeWhile (· ≠ '=')

/-- What a parameter has behind its first equals sign, without the blanks around it. -/
def defaultPart (parameter : List Char) : List Char :=
  Text.trim ((parameter.dropWhile (· ≠ '=')).drop 1)

/-- A parameter is left out, or of it a name is left and its default, if it has one. -/
theorem parameterName?_cases
    {parameter reduced : List Char}
    (isReduced : parameterName? parameter = some reduced) :
    ∃ name,
      (∀ c ∈ name, Text.isNameChar c = true) ∧
        (defaultPart parameter = [] ∧ reduced = name ∨
          reduced = name ++ " = ".toList ++ defaultPart parameter) := by
  unfold parameterName? at isReduced
  rw [List.span_eq_takeWhile_dropWhile] at isReduced
  dsimp only at isReduced
  split at isReduced
  · contradiction
  obtain ⟨name, isName, rfl⟩ := Option.map_eq_some_iff.mp isReduced
  refine ⟨name, isNameChar_of_lastName? isName, ?_⟩
  split
  · next empty => exact .inl ⟨List.isEmpty_iff.mp empty, rfl⟩
  · exact .inr rfl

/-- A parameter that is named, and not only void, is not left out. -/
theorem exists_parameterName?
    {parameter : List Char}
    (named : (declaredPart parameter).filter Text.isNameChar ∉ [[], "void".toList]) :
    ∃ reduced, parameterName? parameter = some reduced := by
  unfold parameterName?
  rw [List.span_eq_takeWhile_dropWhile]
  dsimp only
  generalize isDeclared : parameter.takeWhile (fun c => decide (c ≠ '=')) = declared
  generalize isBackwards :
    (dropBracketPairs (Text.trim declared).reverse).dropWhile Text.isBlank = backwards
  have same : backwards.reverse.filter Text.isNameChar = declared.filter Text.isNameChar := by
    rw [← isBackwards, List.filter_reverse,
      filter_dropWhile fun _ => Script.not_isNameChar_of_isBlank,
      filter_isNameChar_dropBracketPairs, List.filter_reverse, List.reverse_reverse,
      filter_isNameChar_trim]
  rw [declaredPart, isDeclared, ← same, List.mem_pair, not_or] at named
  obtain ⟨hasName, notVoid⟩ := named
  rw [if_neg]
  · obtain ⟨name, isName⟩ := @exists_lastName? backwards fun none => by
      rw [List.filter_reverse, none] at hasName
      exact hasName rfl
    exact ⟨_, Option.map_eq_some_iff.mpr ⟨name, isName, rfl⟩⟩
  · rw [Bool.or_eq_true, not_or]
    constructor
    · rintro empty
      rw [List.isEmpty_iff.mp empty] at hasName
      exact hasName rfl
    · intro isVoid
      rw [of_decide_eq_true isVoid] at notVoid
      exact notVoid rfl

/-- A parameter that is named and has no quotes in front of its default. -/
structure QuotesInDefault (parameter : List Char) : Prop where
  declared : ∀ c ∈ declaredPart parameter, c ∉ quotes
  /-- A parameter that is only void, or has no name, is left out with its default. -/
  named : (declaredPart parameter).filter Text.isNameChar ∉ [[], "void".toList]

/-- A parameter that declares no quotes keeps its literals when it is reduced. -/
theorem CodeText.parameterName?
    {following other : Option Char}
    {parameter reduced : List Char}
    {literals : List (List Char)}
    (code : CodeText following parameter literals)
    (isReduced : parameterName? parameter = some reduced)
    (unquoted : ∀ c ∈ declaredPart parameter, isUnquoted c = true)
    (nothing : opensNothing other) :
    CodeText other reduced literals := by
  obtain ⟨name, isName, areParts⟩ := parameterName?_cases isReduced
  have plainName : ∀ c ∈ name, isPlain c = true :=
    fun c member => isPlain_of_isNameChar (isName c member)
  have plainEquals : ∀ c ∈ " = ".toList, isPlain c = true := isPlain_of_all rfl
  have stops : ∀ c ∈ (parameter.dropWhile (· ≠ '=')).head?, c = '=' := by
    intro c isHead
    have stopped := List.head?_dropWhile_not (fun c => decide (c ≠ '=')) parameter
    rw [Option.mem_def.mp isHead] at stopped
    simpa using stopped
  -- All literals stand in the default, which is trimmed.
  have codeDefault : CodeText other (defaultPart parameter) literals := by
    unfold declaredPart at unquoted
    unfold defaultPart
    have whole := List.takeWhile_append_dropWhile (p := fun c => decide (c ≠ '='))
      (l := parameter)
    generalize parameter.takeWhile _ = declared, parameter.dropWhile _ = afterDeclared at *
    rw [← whole] at code
    obtain ⟨_, codeRest⟩ := code.split_unquoted_left unquoted
    rcases afterDeclared with _ | ⟨c, default⟩
    · exact codeRest.trim nothing
    · obtain rfl := stops c rfl
      obtain ⟨_, codeTail⟩ := @CodeText.split_unquoted_left following ['='] default literals
        codeRest (List.forall_mem_singleton.mpr rfl)
      exact codeTail.trim nothing
  rcases areParts with ⟨empty, rfl⟩ | rfl
  · rw [empty] at codeDefault
    obtain rfl := codeDefault.literals_eq_nil (by simp)
    exact .of_isPlain plainName
  · have plainFront : ∀ c ∈ name ++ " = ".toList, isPlain c = true :=
      List.forall_mem_append.mpr ⟨plainName, plainEquals⟩
    exact (CodeText.of_isPlain plainFront).append codeDefault

/-- The first of some stretches is cut off where no literal has a comma. -/
theorem CodeText.split_intercalate
    {following : Option Char}
    {first : List Char}
    {others : List (List Char)}
    {literals : List (List Char)}
    (code : CodeText following (List.intercalate [','] (first :: others)) literals)
    (noComma : ∀ spelled ∈ literals, ',' ∉ spelled) :
    ∃ front back behind,
      literals = front ++ back ∧ CodeText behind first front ∧
        CodeText following (List.intercalate [','] others) back := by
  cases others with
  | nil =>
      rw [List.intercalate_singleton] at code
      exact ⟨literals, [], following, by simp, code, .finish⟩
  | cons next others =>
      rw [List.intercalate_cons_cons, List.append_assoc, List.singleton_append] at code
      obtain ⟨front, back, same, codeFront, codeBack⟩ := code.split_at noComma rfl
      exact ⟨front, back, some ',', same, codeFront, codeBack⟩

section Unquoted

variable {parameter : List Char}
variable (inDefault : (∃ quote ∈ quotes, quote ∈ parameter) → QuotesInDefault parameter)

include inDefault

/-- A parameter that is reduced to nothing has no quotes. -/
theorem unquoted_of_reduced (reduced : parameterName? parameter = none) :
    ∀ c ∈ parameter, isUnquoted c = true := by
  intro c member
  refine isUnquoted_iff_notMem.mpr fun isQuote => ?_
  obtain ⟨name, isReduced⟩ := exists_parameterName? (inDefault ⟨c, isQuote, member⟩).named
  rw [reduced] at isReduced
  contradiction

/-- A parameter has no quotes in front of its default. -/
theorem unquoted_declaredPart : ∀ c ∈ declaredPart parameter, isUnquoted c = true := by
  intro c member
  refine isUnquoted_iff_notMem.mpr fun isQuote => ?_
  have inParameter := (List.takeWhile_sublist _).subset member
  exact (inDefault ⟨c, isQuote, inParameter⟩).declared c member isQuote

end Unquoted

/--
Parameters keep their literals when they are reduced, if those that have any have them in a
default and no literal has a comma in it.
-/
theorem CodeText.joinArguments
    {following other : Option Char}
    {parameters : List (List Char)}
    {literals : List (List Char)}
    (code : CodeText following (List.intercalate [','] parameters) literals)
    (noComma : ∀ spelled ∈ literals, ',' ∉ spelled)
    (inDefault :
      ∀ parameter ∈ parameters, (∃ quote ∈ quotes, quote ∈ parameter) → QuotesInDefault parameter)
    (nothing : opensNothing other) :
    CodeText other (Sketch.joinArguments (parameters.filterMap Sketch.parameterName?))
      literals := by
  induction parameters generalizing following literals with
  | nil =>
      obtain rfl := code.literals_eq_nil (by simp)
      exact .finish
  | cons parameter others inductionHypothesis =>
      obtain ⟨inDefaultHere, inDefaultOthers⟩ := List.forall_mem_cons.mp inDefault
      obtain ⟨first, rest, behind, rfl, codeFirst, codeRest⟩ := code.split_intercalate noComma
      have joined := inductionHypothesis codeRest
        (fun spelled member => noComma spelled (List.mem_append_right _ member)) inDefaultOthers
      cases reduced : Sketch.parameterName? parameter with
      | none =>
          obtain rfl := codeFirst.literals_eq_nil (unquoted_of_reduced inDefaultHere reduced)
          rw [List.filterMap_cons_none reduced]
          exact joined
      | some name =>
          rw [List.filterMap_cons_some reduced]
          have codeName {other : Option Char} (nothing : opensNothing other) :
              CodeText other name first :=
            codeFirst.parameterName? reduced (unquoted_declaredPart inDefaultHere) nothing
          rcases areNames : others.filterMap Sketch.parameterName? with _ | ⟨next, names⟩
          · rw [areNames] at joined
            obtain rfl := joined.literals_eq_nil (by simp [Sketch.joinArguments])
            rw [List.append_nil, Sketch.joinArguments, List.intercalate_singleton]
            exact codeName nothing
          · rw [areNames] at joined
            rw [Sketch.joinArguments, List.intercalate_cons_cons, List.append_assoc]
            have between : CodeText other
                ([',', ' '] ++ List.intercalate [',', ' '] (next :: names)) rest :=
              (CodeText.of_isPlain (isPlain_of_all rfl)).append joined
            refine (codeName ?_).append between
            rintro c ⟨⟩
            decide

end LedSketch.Sketch
