import LedSketch.Proofs.Sketch.Kept
import LedSketch.Proofs.Sketch.LoweredHeaders
import LedSketch.Proofs.Sketch.StripDeclarations

namespace LedSketch.Sketch

/-!
# Constructors of strips

Of a constructor the two rules for strips leave a call with the first three arguments at most.
Neither of them touches what the other one is about, because the name of the class does not
stand among the arguments.
-/

open Pattern Vocabulary Catalogue
open Script (StopsAt)
open Text (Occurs HasWord)

/-- A rule that matches all of a text puts its replacement there. -/
theorem Rule.apply_of_match
    {rule : Rule}
    {replace : Match → List Char}
    {text : List Char}
    {found : Match}
    (computed : rule.replacement = .computed replace)
    (matched : rule.pattern.matchAt? text.length ⟨none, text, 0⟩ = some found)
    (behind : found.last.rest = [])
    (oneLine : '\n' ∉ text) :
    (rule.apply text).1 = replace found := by
  have atText : rule.pattern.matchAt? text.length ⟨none, text ++ [], 0⟩ = some found := by
    rwa [List.append_nil]
  obtain ⟨isText, notEmpty⟩ := text_of_matchAt? atText behind
  obtain ⟨count, isCount⟩ : ∃ fewer, text.length = fewer + 1 :=
    Nat.exists_eq_add_one.mpr (List.length_pos_iff.mpr notEmpty)
  have nothing (turns : Nat) : rule.pattern.piecesFrom turns count found.last = [] := by
    cases count with
    | zero => rfl
    | succ count =>
        unfold Pattern.piecesFrom
        rw [behind]
  have whole := @segmentsFrom_found rule text.length none [] found text count 0 .initial atText
    behind
  rw [nothing, List.append_nil, ← isCount] at whole
  have applied : rule.replacement.apply? .initial found = some (replace found) := by
    rw [computed, Replacement.apply?]
  have made : (rule.segment .initial found).after = replace found :=
    (after_segment rfl applied).trans (keepLines_of_oneLine (isText ▸ oneLine) _)
  have same : (rule.apply text).1 = (rule.segmentsFrom .initial
      (rule.pattern.piecesFrom text.length text.length ⟨none, text, 0⟩)).flatMap
        Segment.after :=
    rfl
  rw [same, whole, List.flatMap_cons, made]
  exact List.append_nil _

namespace StripDeclaration

variable (declaration : StripDeclaration)

theorem padded_arguments :
    (declaration.first :: declaration.second :: declaration.others).map
        (fun argument => argument.padded) =
      (declaration.first.toArgument :: (declaration.second :: declaration.others).map
        StripArgument.toArgument).map Argument.padded := by
  simp

/-- The constructor of the two rules keeps the first three arguments. -/
theorem constructStrip_eq
    {found : Match}
    (isName : found.group 1 = declaration.name)
    (areArguments : found.group 2 = declaration.argumentText) :
    constructStrip found = declaration.created := by
  obtain ⟨name, isNameText, first, second, others⟩ := declaration
  have split : splitArguments (found.group 2) =
      first.text :: second.text :: others.map fun argument => argument.text := by
    rw [areArguments, argumentText, padded_arguments, splitArguments_padded]
    simp
  have filled (argument : StripArgument) : argument.text.isEmpty = false :=
    List.isEmpty_eq_false_iff.mpr argument.notEmpty
  have joined :
      joinArguments ((first.text :: second.text ::
        others.map fun argument => argument.text).take 3) =
          first.text ++ ',' :: ' ' :: (second.text ++ third others) := by
    cases others <;> simp [joinArguments, third]
  have complete :
      ((first.text :: second.text :: others.map fun argument => argument.text).take 3).any
        List.isEmpty = false := by
    cases others <;> simp [filled]
  have enough :
      ¬ (first.text :: second.text :: others.map fun argument => argument.text).length < 2 := by
    simp only [List.length_cons]
    omega
  unfold constructStrip
  dsimp only
  rw [split, complete, decide_eq_false enough, Bool.or_false, if_neg Bool.false_ne_true, joined,
    isName]
  have regroup (lead made body : List Char) :
      lead ++ name ++ made ++ body ++ [')', ';'] =
        lead ++ (name ++ (made ++ (body ++ [')', ';']))) := by
    simp
  exact regroup letText createText _

theorem isWord_stripWord : ∀ c ∈ stripWord, Text.isWordChar c = true := by decide

theorem notEmpty_stripWord : stripWord ≠ [] := by decide

/-- No argument has the name of the class, so their list has not. -/
theorem not_hasWord_arguments : ¬ HasWord stripWord declaration.argumentText := by
  have notPadded (argument : StripArgument) : ¬ HasWord stripWord argument.padded :=
    Text.not_hasWord_pad isWord_stripWord notEmpty_stripWord argument.blankBefore
      argument.blankAfter argument.otherWords
  rw [argumentText]
  generalize declaration.first :: declaration.second :: declaration.others = arguments
  induction arguments with
  | nil => exact HasWord.not_nil notEmpty_stripWord
  | cons argument arguments inductionHypothesis =>
      cases arguments with
      | nil =>
          rw [List.map_cons, List.map_nil, List.intercalate_singleton]
          exact notPadded argument
      | cons next arguments =>
          rw [List.map_cons, List.map_cons, List.intercalate_cons_cons, List.append_assoc]
          exact Text.not_hasWord_divide isWord_stripWord notEmpty_stripWord (notPadded argument)
            inductionHypothesis (by decide)

section Unmatched

variable {passed : List Char} {taken : List (Nat × List Char)}

/-- The last character of white space, or of a word with white space behind it, is no word. -/
theorem noWord_getLast?
    {front gap : List Char}
    (notEmpty : gap ≠ [] ∨ front = [])
    (blank : ∀ c ∈ gap, Text.isBlank c = true) :
    ∀ c ∈ (front ++ gap).getLast?, Text.isWordChar c = false := by
  intro c isLast
  rw [List.getLast?_append] at isLast
  cases isGap : gap.getLast? with
  | none =>
      obtain rfl := List.getLast?_eq_none_iff.mp isGap
      obtain rfl := notEmpty.resolve_left (not_not_intro rfl)
      contradiction
  | some last =>
      rw [isGap] at isLast
      obtain rfl : last = c := Option.some.inj isLast
      exact Text.not_isWordChar_of_isBlank (blank last (List.mem_of_getLast? isGap))

/-- In an assignment the name of the class stands behind the mark. -/
theorem exists_class_of_takes (takes : Takes stripAssignments.pattern passed taken) :
    ∃ front behind, passed = front ++ '=' :: behind ∧
      ∀ rest, HasWord stripWord (behind ++ rest) := by
  have split : stripAssignments.pattern = all
      ([.wordEdge, stripClass, spaces, Pattern.optional (mark '*'), spaces,
          .group 1 Vocabulary.name, spaces] ++
        mark '=' :: spaces :: Pattern.optional (.seq (literal "new") spaces1) :: stripClass ::
          spaces :: mark '(' :: [.group 2 (zeroOrMore (noneOf [';'])), mark ')', spaces,
            mark ';']) :=
    rfl
  rw [split] at takes
  obtain ⟨front, _, _, _, -, takesMark, rfl, -⟩ := takes_all_append takes
  obtain ⟨_, _, _, _, ⟨-, c, isMark, rfl⟩, takesGap, rfl, -⟩ := takes_all_cons takesMark
  obtain rfl : c = '=' := of_decide_eq_true isMark
  obtain ⟨gap, _, _, _, blankGap, takesNew, rfl, -⟩ := takes_all_cons takesGap
  obtain ⟨allocation, _, _, _, isAllocation, takesClass, rfl, -⟩ := takes_all_cons takesNew
  obtain ⟨_, opening, _, _, isClass, takesOpening, rfl, -⟩ := takes_all_cons takesClass
  obtain rfl := takes_literal isClass
  have isOpening := isOpening_of_takes takesOpening
  have blank : ∀ c ∈ gap, Text.isBlank c = true := fun c => blankGap.mayTake
  have outside : ∀ c ∈ (gap ++ allocation).getLast?, Text.isWordChar c = false := by
    rcases isAllocation with ⟨_, behind, _, _, -, takesBlank, rfl, -⟩ | ⟨rfl, -⟩
    · have isGap := IsGap.of_takes takesBlank
      rw [← List.append_assoc]
      exact noWord_getLast? (.inl isGap.notEmpty) isGap.blank
    · rw [List.append_nil]
      exact @noWord_getLast? [] gap (.inr rfl) blank
  refine ⟨front, gap ++ (allocation ++ (stripWord ++ opening)), rfl, fun rest =>
    ⟨opening ++ rest, ⟨gap ++ allocation, by simp, outside⟩, ?_⟩⟩
  obtain ⟨blanks, more, blank, rfl⟩ := isOpening
  cases blanks with
  | nil =>
      rintro c ⟨⟩
      rfl
  | cons c blanks =>
      rintro c ⟨⟩
      exact Text.not_isWordChar_of_isBlank (blank _ List.mem_cons_self)

/-- In a declaration a gap and a name stand behind the name of the class. -/
theorem exists_name_of_takes (takes : Takes stripDeclarations.pattern passed taken) :
    ∃ gap c more, IsGap gap ∧ Text.isNameStart c = true ∧
      passed = stripWord ++ (gap ++ c :: more) := by
  obtain ⟨_, _, _, _, ⟨rfl, -⟩, takesClass, rfl, -⟩ := takes_all_cons takes
  obtain ⟨_, _, _, _, isClass, takesGap, rfl, -⟩ := takes_all_cons takesClass
  obtain ⟨gap, _, _, _, isGap, takesName, rfl, -⟩ := takes_all_cons takesGap
  obtain ⟨_, more, _, _, ⟨_, isName, -⟩, -, rfl, -⟩ := takes_all_cons takesName
  obtain ⟨_, others, _, _, ⟨-, c, starts, rfl⟩, -, rfl, -⟩ := isName
  obtain rfl := takes_literal isClass
  exact ⟨gap, c, others ++ more, .of_takes isGap, starts, rfl⟩

end Unmatched

theorem not_hasWord_of_short
    {text : List Char}
    (short : text.length < stripWord.length) :
    ¬ HasWord stripWord text :=
  fun hasWord => absurd hasWord.length_le (Nat.not_le_of_lt short)

/-- Only characters that are no words join the parts of a text. -/
theorem not_hasWord_join
    {first second : List Char}
    {separator : Char}
    (notFirst : ¬ HasWord stripWord first)
    (notSecond : ¬ HasWord stripWord second)
    (divides : Text.isWordChar separator = false) :
    ¬ HasWord stripWord (first ++ separator :: second) :=
  Text.not_hasWord_divide isWord_stripWord notEmpty_stripWord notFirst notSecond divides

/-- A character that is not in the front of a text is in what is left of it. -/
theorem exists_of_notMem
    {front rest first second : List Char}
    {c : Char}
    (notInFront : c ∉ front)
    (split : front ++ rest = first ++ c :: second) :
    ∃ more, rest = more ++ c :: second := by
  rcases List.append_eq_append_iff.mp split with ⟨more, -, isRest⟩ | ⟨more, isFront, isRest⟩
  · exact ⟨more, isRest⟩
  · rcases more with _ | ⟨other, more⟩
    · exact ⟨[], isRest.symm⟩
    · obtain ⟨rfl, -⟩ := List.cons_eq_cons.mp isRest
      exact absurd (isFront ▸ List.mem_append_right first List.mem_cons_self) notInFront

/-- The rule for assignments leaves a declaration as it is. -/
theorem apply_stripAssignments_declared :
    stripAssignments.apply declaration.declared = (declaration.declared, 0) := by
  refine Rule.apply_of_keeps (.of_unmatched fun front behind split offset =>
    matchAt?_eq_none fun passed taken rest takes _ whole => ?_)
  obtain ⟨inner, later, rfl, hasWord⟩ := exists_class_of_takes takes
  dsimp only at whole
  -- The mark of an assignment can only stand among the arguments, and the class behind it.
  have same : (stripWord ++ ' ' :: (declaration.name ++ ['('])) ++
      (declaration.argumentText ++ [')', ';']) =
        (front ++ inner) ++ '=' :: (later ++ rest) := by
    rw [whole] at split
    simpa [declared] using split
  have notInFront : '=' ∉ stripWord ++ ' ' :: (declaration.name ++ ['(']) := by
    have notInClass : '=' ∉ stripWord := by decide
    have notInName : '=' ∉ declaration.name :=
      fun member => absurd (declaration.isName.isName '=' member) (by decide)
    simp [notInClass, notInName]
  obtain ⟨more, isMore⟩ := exists_of_notMem notInFront same
  have notArguments : ¬ HasWord stripWord (declaration.argumentText ++ [')', ';']) :=
    not_hasWord_join declaration.not_hasWord_arguments (not_hasWord_of_short (by decide))
      (by decide)
  rw [isMore] at notArguments
  exact notArguments ((hasWord rest).prepend (by decide) more)

theorem not_hasWord_kept : ¬ HasWord stripWord declaration.keptText := by
  have notBehindComma {text : List Char} (notText : ¬ HasWord stripWord text) :
      ¬ HasWord stripWord (' ' :: text) :=
    @Text.not_hasWord_blank_append _ _ isWord_stripWord notEmpty_stripWord [' '] (by decide) notText
  obtain ⟨name, isName, first, second, others⟩ := declaration
  refine not_hasWord_join first.otherWords (notBehindComma ?_) (by decide)
  cases others with
  | nil =>
      rw [third, List.append_nil]
      exact second.otherWords
  | cons argument others =>
      exact not_hasWord_join second.otherWords (notBehindComma argument.otherWords) (by decide)

/-- In a call no name stands behind the name of the class. -/
theorem not_occurs_created
    {gap more : List Char}
    {c : Char}
    (isGap : IsGap gap)
    (starts : Text.isNameStart c = true) :
    ¬ Occurs stripWord declaration.created (gap ++ c :: more) := by
  intro occurs
  let call := "createStrip".toList ++ '(' :: (declaration.keptText ++ [')', ';'])
  have isCreated : declaration.created =
      "let".toList ++ ' ' :: (declaration.name ++ ' ' :: ('=' :: ' ' :: call)) :=
    rfl
  have stopsGap : StopsAt Text.isWordChar (gap ++ c :: more) := by
    obtain ⟨blank, blanks, rfl⟩ := List.exists_cons_of_ne_nil isGap.notEmpty
    rintro other ⟨⟩
    exact Text.not_isWordChar_of_isBlank (isGap.blank _ List.mem_cons_self)
  rw [isCreated] at occurs
  rcases occurs.divide isWord_stripWord notEmpty_stripWord (by decide) with
      ⟨rest, ⟨front, isText, -⟩, -⟩ | occurs
  · have lengths := congrArg List.length isText
    simp only [List.length_append] at lengths
    have short : "let".toList.length < stripWord.length := by decide
    omega
  rcases occurs.divide isWord_stripWord notEmpty_stripWord (by decide) with
      ⟨rest, ⟨front, isText, -⟩, isRest⟩ | occurs
  · -- The name of the strip ends with the name of the class, but a mark stands behind it.
    obtain ⟨blank, blanks, isBlanks⟩ := List.exists_cons_of_ne_nil isGap.notEmpty
    have isBlank := isGap.blank blank (isBlanks ▸ List.mem_cons_self)
    cases rest with
    | cons other rest =>
        rw [isBlanks] at isRest
        obtain ⟨rfl, -⟩ := List.cons_eq_cons.mp isRest
        have isName := declaration.isName.isName blank (by rw [isText]; simp)
        rw [Script.not_isNameChar_of_isBlank isBlank] at isName
        contradiction
    | nil =>
        have noBlank : StopsAt Text.isBlank (c :: more) := by
          rintro other ⟨⟩
          exact not_isBlank_of_isNameChar (Text.isNameChar_of_isNameStart starts)
        have split : gap ++ c :: more = [' '] ++ '=' :: ' ' :: call := isRest
        obtain ⟨-, behind⟩ :=
          stretch_unique isGap.blank noBlank (by decide) (by rintro other ⟨⟩; rfl) split
        obtain ⟨rfl, -⟩ := List.cons_eq_cons.mp behind
        contradiction
  · refine absurd ⟨_, occurs, stopsGap⟩ (@not_hasWord_join ['='] call ' ' ?_ ?_ (by decide))
    · exact not_hasWord_of_short (by decide)
    · exact not_hasWord_join (not_hasWord_of_short (by decide))
        (not_hasWord_join declaration.not_hasWord_kept (not_hasWord_of_short (by decide))
          (by decide)) (by decide)

/-- The rule for declarations leaves a call as it is. -/
theorem apply_stripDeclarations_created :
    stripDeclarations.apply declaration.created = (declaration.created, 0) := by
  refine Rule.apply_of_keeps (.of_unmatched fun front behind split offset => ?_)
  refine Option.eq_none_iff_forall_ne_some.mpr fun found matched => ?_
  obtain ⟨-, took, -⟩ := took_of_matchAt? matched
  obtain ⟨gap, c, more, isGap, starts, isText⟩ := exists_name_of_takes took.takes
  have whole : behind = stripWord ++ (gap ++ c :: (more ++ found.last.rest)) := by
    have isBehind := took.passes.rest
    rw [isText] at isBehind
    simpa using isBehind
  have outside : ∀ c ∈ front.getLast?, Text.isWordChar c = false := by
    intro last isLast
    by_contra inside
    rw [Bool.not_eq_false] at inside
    have noEdge : atWordEdge Text.isWordChar ⟨front.getLast?.or none, behind, offset⟩ = false := by
      rw [whole, Option.mem_def.mp isLast, atWordEdge, Option.some_or, isWordAt, inside]
      rfl
    have edged : stripDeclarations.pattern.IsEdged := .wordEdge
    rw [edged _ _ noEdge] at matched
    contradiction
  exact declaration.not_occurs_created isGap starts
    ⟨front, by rw [split, whole, List.append_assoc], outside⟩

theorem noLineEnd_name : '\n' ∉ declaration.name :=
  fun member => absurd (declaration.isName.isName '\n' member) (by decide)

theorem oneLine_declared : '\n' ∉ declaration.declared := by
  have notInClass : '\n' ∉ stripWord := by decide
  simp [declared, notInClass, declaration.noLineEnd_name, declaration.noLineEnd_arguments]

theorem oneLine_assigned
    (pointer allocated : Bool) :
    '\n' ∉ declaration.assigned pointer allocated := by
  have notInClass : '\n' ∉ stripWord := by decide
  have notInNew : '\n' ∉ newText := by decide
  cases pointer <;> cases allocated <;>
    simp [assigned, notInClass, notInNew, declaration.noLineEnd_name,
      declaration.noLineEnd_arguments]

/--
The two rules for strips make the same call of every constructor of a strip, from its first
three arguments, or from both if there are two.
-/
theorem strip_constructors_keep_three :
    (stripDeclarations.apply (stripAssignments.apply declaration.declared).1).1 =
        declaration.created ∧
      ∀ pointer allocated,
        (stripDeclarations.apply
          (stripAssignments.apply (declaration.assigned pointer allocated)).1).1 =
            declaration.created := by
  constructor
  · obtain ⟨found, matched, behind, isName, areArguments⟩ := declaration.matchAt?_declared
    rw [apply_stripAssignments_declared,
      Rule.apply_of_match rfl matched behind declaration.oneLine_declared]
    exact declaration.constructStrip_eq isName areArguments
  · intro pointer allocated
    obtain ⟨found, matched, behind, isName, areArguments⟩ :=
      declaration.matchAt?_assigned pointer allocated
    rw [Rule.apply_of_match rfl matched behind (declaration.oneLine_assigned pointer allocated),
      declaration.constructStrip_eq isName areArguments, apply_stripDeclarations_created]

/-- A parenthesis in a literal closes no bracket, and a comma in brackets divides nothing. -/
theorem strip_constructors_keep_three_of_nested_call :
    ∃ declaration : StripDeclaration,
      declaration.declared = "Adafruit_NeoPixel s(f(1, ')'), 6 , G, 4);".toList ∧
        declaration.assigned true true =
          "Adafruit_NeoPixel *s = new Adafruit_NeoPixel(f(1, ')'), 6 , G, 4);".toList ∧
        (stripDeclarations.apply (stripAssignments.apply declaration.declared).1).1 =
          "let s = createStrip(f(1, ')'), 6, G);".toList ∧
        (stripDeclarations.apply (stripAssignments.apply (declaration.assigned true true)).1).1 =
          "let s = createStrip(f(1, ')'), 6, G);".toList := by
  have inLiteral : Balanced true ['\'', ')', '\''] :=
    @Balanced.literal true '\'' [')'] _ [] rfl
      (.plain (by decide) (by decide) (by decide) .nothing) .nil
  have inBrackets : Balanced true ['1', ',', ' ', '\'', ')', '\''] :=
    .plain rfl rfl rfl (by decide)
      (.plain rfl rfl rfl (by decide) (.plain rfl rfl rfl (by decide) inLiteral))
  have nested : Balanced false ('f' :: '(' :: (['1', ',', ' ', '\'', ')', '\''] ++ [')'])) :=
    .plain rfl rfl rfl (by decide) (.brackets rfl rfl inBrackets .nil)
  let first : StripArgument :=
    { before := [], text := "f(1, ')')".toList, after := [], blankBefore := by decide,
      blankAfter := by decide, notEmpty := by decide, trimmed := by decide, balanced := nested,
      oneLine := (by decide : '\n' ∉ [] ++ ("f(1, ')')".toList ++ [])), noEnd := by decide,
      otherWords := not_hasWord_of_short (by decide) }
  let second : StripArgument :=
    { before := [' '], text := ['6'], after := [' '], blankBefore := by decide,
      blankAfter := by decide, notEmpty := by decide, trimmed := by decide,
      balanced := .plain rfl rfl rfl (by decide) .nil,
      oneLine := (by decide : '\n' ∉ [' '] ++ (['6'] ++ [' '])), noEnd := by decide,
      otherWords := not_hasWord_of_short (by decide) }
  let third : StripArgument :=
    { before := [' '], text := ['G'], after := [], blankBefore := by decide,
      blankAfter := by decide, notEmpty := by decide, trimmed := by decide,
      balanced := .plain rfl rfl rfl (by decide) .nil,
      oneLine := (by decide : '\n' ∉ [' '] ++ (['G'] ++ [])), noEnd := by decide,
      otherWords := not_hasWord_of_short (by decide) }
  let fourth : StripArgument :=
    { before := [' '], text := ['4'], after := [], blankBefore := by decide,
      blankAfter := by decide, notEmpty := by decide, trimmed := by decide,
      balanced := .plain rfl rfl rfl (by decide) .nil,
      oneLine := (by decide : '\n' ∉ [' '] ++ (['4'] ++ [])), noEnd := by decide,
      otherWords := not_hasWord_of_short (by decide) }
  let declaration : StripDeclaration :=
    ⟨['s'], ⟨⟨'s', rfl, rfl⟩, by decide⟩, first, second, [third, fourth]⟩
  obtain ⟨fromDeclared, fromAssigned⟩ := strip_constructors_keep_three declaration
  exact ⟨declaration, rfl, rfl, fromDeclared, fromAssigned true true⟩

end StripDeclaration

end LedSketch.Sketch
