import LedSketch.Proofs.Sketch.Headers

namespace LedSketch.Sketch

/-!
# Wrapped functions

The rule that wraps functions matches a header without types as a whole.  Of a parameter it
leaves the last name that it finds, and that is not the declared one if brackets behind it
have something in them.
-/

open Pattern Vocabulary Catalogue
open Script (StopsAt)

section Matching

variable {turns : Nat} {start : Progress} {name parameters rest : List Char}

/-- Nothing is taken where no blank stands. -/
theorem prefers_noBlanks
    (noBlank : ∀ c ∈ start.cursor.rest.head?, c ≠ ' ' ∧ c ≠ '\t') :
    Prefers turns blanks start start := by
  refine (Repeats.stop (.of_mayStart rfl fun c isHead => ?_)).prefers (Nat.zero_le turns)
  simp [blank, oneOf, mayStart, noBlank c isHead]

theorem not_blank_of_isNameChar
    {c : Char}
    (isName : Text.isNameChar c = true) :
    c ≠ ' ' ∧ c ≠ '\t' := by
  constructor <;>
    · rintro rfl
      contradiction

theorem noBlank_of_beginsWord
    {text : List Char}
    (begins : BeginsWord text) :
    ∀ c ∈ text.head?, c ≠ ' ' ∧ c ≠ '\t' := by
  obtain ⟨first, isFirst, isName⟩ := begins
  intro c isHead
  cases Option.some.inj (isFirst.symm.trans isHead)
  exact not_blank_of_isNameChar isName

/-- The part of a header that names no function: its parameters and the brace behind them. -/
def parameterList : Pattern :=
  .seq (mark '(')
    (.seq (.group 3 (zeroOrMore (noneOf ['(', ')'])))
      (.seq (mark ')') (.group 4 (.seq spaces (mark '\x7b')))))

theorem functions_pattern :
    functions.pattern =
      .seq .lineStart
        (.seq (.group 1 blanks)
          (.seq (Pattern.optional (.seq (words ["void", "let"]) blanks1))
            (.seq (Pattern.optional (mark '*'))
              (.seq blanks (.seq (.group 2 Vocabulary.name) (.seq blanks parameterList)))))) :=
  rfl

/-- The keyword in front of a name is taken with the blank behind it. -/
theorem prefers_keyword
    {keyword : String}
    (known : keyword ∈ ["void", "let"])
    (text : start.cursor.rest = keyword.toList ++ ([' '] ++ rest))
    (begins : BeginsWord rest)
    (enough : 1 ≤ turns) :
    Prefers turns (Pattern.optional (.seq (words ["void", "let"]) blanks1)) start
      (start.skip (keyword.toList ++ [' ']).length) := by
  have alone : ∀ other ∈ ["void", "let"],
      other.toList <+: keyword.toList ++ ([' '] ++ rest) → other = keyword := by
    intro other isOther isPrefix
    simp only [List.mem_cons, List.not_mem_nil, or_false] at isOther known
    rcases isOther with rfl | rfl <;> rcases known with rfl | rfl <;> simp at isPrefix ⊢
  have ofBlank : Prefers turns blanks1 _ _ :=
    .oneOrMore_char (Progress.rest_skip text) (List.cons_ne_nil ' ' []) (by decide)
      (fun c isHead => by simpa using noBlank_of_beginsWord begins c isHead) enough
  rw [Progress.skip_skip, ← List.length_append] at ofBlank
  exact .left (.seq (.words text known alone) ofBlank)

/-- Parameters without parentheses are remembered as they are, and so is the brace. -/
theorem prefers_parameterList
    (text : start.cursor.rest = '(' :: (parameters ++ ')' :: ([' '] ++ '\x7b' :: rest)))
    (noParentheses : ∀ c ∈ parameters, c ≠ '(' ∧ c ≠ ')')
    (enough : parameters.length + 1 ≤ turns) :
    ∃ last, Prefers turns parameterList start last ∧ last.cursor.rest = rest ∧
      last.groups.map Group.numbered =
        (4, [' ', '\x7b']) :: (3, parameters) :: start.groups.map Group.numbered := by
  -- The places behind the parts, with the groups that are remembered up to there.
  let listed := remember 3 (start.skip 1) ((start.skip 1).skip parameters.length)
  let closed := listed.skip 1
  let opened := remember 4 closed ((closed.skip 1).skip 1)
  have atParameters : (start.skip 1).cursor.rest =
      parameters ++ ')' :: ([' '] ++ '\x7b' :: rest) :=
    Progress.rest_skip_one text
  have atEnd : listed.cursor.rest = ')' :: ([' '] ++ '\x7b' :: rest) :=
    Progress.rest_skip atParameters
  have atBlank : closed.cursor.rest = [' '] ++ '\x7b' :: rest := Progress.rest_skip_one atEnd
  have atBrace : (closed.skip 1).cursor.rest = '\x7b' :: rest := Progress.rest_skip atBlank
  have ofOpening : Prefers turns (mark '(') start (start.skip 1) := .char text rfl
  have ofParameters :
      Prefers turns (.group 3 (zeroOrMore (noneOf ['(', ')']))) (start.skip 1) listed :=
    (Prefers.zeroOrMore_char atParameters
      (fun c member => by simpa using noParentheses c member)
      (by rintro c ⟨⟩; decide) (by omega)).group 3
  have ofEnd : Prefers turns (mark ')') listed closed := .char atEnd rfl
  have ofBlank : Prefers turns spaces closed (closed.skip 1) :=
    Prefers.zeroOrMore_char atBlank (by decide) (by rintro c ⟨⟩; decide) (by simp; omega)
  have ofBrace : Prefers turns (mark '\x7b') (closed.skip 1) ((closed.skip 1).skip 1) :=
    .char atBrace rfl
  have areParameters : (start.skip 1).cursor.textTo listed.cursor = parameters :=
    (Cursor.passes_skip atParameters).textTo_eq
  have isBrace : closed.cursor.textTo ((closed.skip 1).skip 1).cursor = [' ', '\x7b'] :=
    ((Cursor.passes_skip atBlank).trans (@Cursor.passes_skip _ ['\x7b'] rest atBrace)).textTo_eq
  refine ⟨opened,
    ofOpening.seq (ofParameters.seq (ofEnd.seq ((ofBlank.seq ofBrace).group 4))),
    Progress.rest_skip_one atBrace, ?_⟩
  have groups : opened.groups.map Group.numbered =
      (4, closed.cursor.textTo ((closed.skip 1).skip 1).cursor) ::
        (3, (start.skip 1).cursor.textTo listed.cursor) :: start.groups.map Group.numbered :=
    rfl
  rw [groups, areParameters, isBrace]

/-- The rule that wraps functions matches a header up to its brace. -/
theorem matchAt?_functions
    {keyword : String}
    {offset : Nat}
    (known : keyword ∈ ["void", "let"])
    (isName : IsName name)
    (noParentheses : ∀ c ∈ parameters, c ≠ '(' ∧ c ≠ ')')
    (enough : (name ++ parameters).length + 1 ≤ turns) :
    ∃ found,
      functions.pattern.matchAt? turns
          ⟨none, keyword.toList ++ ([' '] ++ (name ++ '(' ::
            (parameters ++ ')' :: ([' '] ++ '\x7b' :: rest)))), offset⟩ = some found ∧
        found.last.rest = rest ∧ found.group 1 = [] ∧ found.group 2 = name ∧
          found.group 3 = parameters ∧ found.group 4 = [' ', '\x7b'] := by
  rw [List.length_append] at enough
  have enoughOne : 1 ≤ turns := by omega
  generalize isList : '(' :: (parameters ++ ')' :: ([' '] ++ '\x7b' :: rest)) = list
  have noBlankList : ∀ c ∈ list.head?, c ≠ ' ' ∧ c ≠ '\t' := by
    rw [← isList]
    rintro c ⟨⟩
    decide
  have stopsList : StopsAt Text.isWordChar list := by
    rw [← isList]
    rintro c ⟨⟩
    decide
  generalize isStart :
    (⟨⟨none, keyword.toList ++ ([' '] ++ (name ++ list)), offset⟩, []⟩ : Progress) = start
  have atKeyword : start.cursor.rest = keyword.toList ++ ([' '] ++ (name ++ list)) := by
    rw [← isStart]
  let indented := remember 1 start start
  let named := indented.skip (keyword.toList ++ [' ']).length
  let called := remember 2 named (named.skip name.length)
  have atName : named.cursor.rest = name ++ list := by
    have split : start.cursor.rest = (keyword.toList ++ [' ']) ++ (name ++ list) := by
      rw [atKeyword, List.append_assoc]
    exact Progress.rest_skip split
  have atList : called.cursor.rest = list := Progress.rest_skip atName
  have enoughList : parameters.length + 1 ≤ turns := by omega
  obtain ⟨last, ofList, behind, groups⟩ :=
    prefers_parameterList (atList.trans isList.symm) noParentheses enoughList
  have noBlankKeyword : ∀ c ∈ start.cursor.rest.head?, c ≠ ' ' ∧ c ≠ '\t' := by
    rw [atKeyword]
    simp only [List.mem_cons, List.not_mem_nil, or_false] at known
    rcases known with rfl | rfl <;>
      · rintro c ⟨⟩
        decide
  have begins := isName.begins list
  have noBlankName : ∀ c ∈ named.cursor.rest.head?, c ≠ ' ' ∧ c ≠ '\t' := by
    rw [atName]
    exact noBlank_of_beginsWord begins
  have noStar : Fails turns (mark '*') named := by
    refine .of_mayStart rfl fun c isHead => ?_
    rw [atName] at isHead
    obtain ⟨first, isFirst, isNameChar⟩ := begins
    cases Option.some.inj (isFirst.symm.trans isHead)
    refine decide_eq_false ?_
    rintro rfl
    contradiction
  have ofLine : Prefers turns .lineStart start start := .lineStart (by rw [← isStart]; rfl)
  have ofIndent : Prefers turns (.group 1 blanks) start indented :=
    (prefers_noBlanks noBlankKeyword).group 1
  have ofKeyword :
      Prefers turns (Pattern.optional (.seq (words ["void", "let"]) blanks1)) indented named :=
    prefers_keyword known atKeyword begins enoughOne
  have ofName : Prefers turns (.group 2 Vocabulary.name) named called :=
    (isName.prefers atName stopsList (by omega)).group 2
  have whole : Prefers turns functions.pattern start last := by
    rw [functions_pattern]
    exact ofLine.seq (ofIndent.seq (ofKeyword.seq ((Prefers.absent noStar).seq
      ((prefers_noBlanks noBlankName).seq (ofName.seq
        ((prefers_noBlanks (atList ▸ noBlankList)).seq ofList))))))
  have shorter : last.cursor.rest.length < start.cursor.rest.length := by
    rw [behind, atKeyword, ← isList]
    simp only [List.length_append, List.length_cons]
    omega
  have goes := whole.finds some last rfl
  have isCalled : called.groups.map Group.numbered = [(2, name), (1, [])] := by
    have isIndent : start.cursor.textTo start.cursor = [] := (Cursor.Passes.refl _).textTo_eq
    have isNameText : named.cursor.textTo called.cursor = name :=
      (Cursor.passes_skip atName).textTo_eq
    have noGroups : start.groups = [] := by rw [← isStart]
    have groups : called.groups.map Group.numbered =
        (2, named.cursor.textTo called.cursor) :: (1, start.cursor.textTo start.cursor) ::
          start.groups.map Group.numbered :=
      rfl
    rw [groups, isNameText, isIndent, noGroups, List.map_nil]
  rw [isCalled] at groups
  subst isStart
  refine ⟨_, matchAt?_eq_some goes shorter, behind, ?_, ?_, ?_, ?_⟩
  · exact @Match.group_eq_of_groups _ _ _ [] [(4, _), (3, _), (2, _)] groups (by simp)
  · exact @Match.group_eq_of_groups _ _ _ [(1, _)] [(4, _), (3, _)] groups (by simp)
  · exact @Match.group_eq_of_groups _ _ _ [(2, _), (1, _)] [(4, _)] groups (by simp)
  · exact @Match.group_eq_of_groups _ _ _ [(3, _), (2, _), (1, _)] [] groups (by simp)

end Matching

section Names

variable {declared backwards name more : List Char}

theorem trim_of_ends
    {lead : List Char}
    (blank : ∀ c ∈ lead, Text.isBlank c = true)
    (starts : StopsAt Text.isBlank declared)
    (ends : StopsAt Text.isBlank declared.reverse) :
    Text.trim (lead ++ declared) = declared := by
  have noBlank {text : List Char} (stops : StopsAt Text.isBlank text) :
      text.dropWhile Text.isBlank = text :=
    @Script.dropWhile_append Text.isBlank [] text (by simp) stops
  rw [Text.trim, Script.dropWhile_append blank starts, noBlank ends, List.reverse_reverse]

theorem dropBracketPairs_of_ne
    {c : Char}
    (notBracket : c ≠ ']') :
    dropBracketPairs (c :: more) = c :: more := by
  unfold dropBracketPairs
  split
  · next same => exact absurd (List.cons.inj same).1 notBracket
  · rfl

theorem dropBracketPairs_of_filled
    {c : Char}
    (notBracket : c ≠ '[') :
    dropBracketPairs (']' :: c :: more) = ']' :: c :: more := by
  unfold dropBracketPairs
  split
  · next same => exact absurd (List.cons.inj (List.cons.inj same).2).1 notBracket
  · rfl

/-- The last name of a text is found behind the marks at its end. -/
theorem lastName?_eq
    {marks : List Char}
    (areMarks : ∀ c ∈ marks, Text.isNameChar c = false)
    (notEmpty : name ≠ [])
    (isName : ∀ c ∈ name, Text.isNameChar c = true)
    (stops : StopsAt Text.isNameChar more) :
    lastName? (marks ++ (name.reverse ++ more)) = some name := by
  have isNameReverse : ∀ c ∈ name.reverse, Text.isNameChar c = true :=
    fun c member => isName c (List.mem_reverse.mp member)
  have atName : StopsAt (fun c => !Text.isNameChar c) (name.reverse ++ more) := by
    obtain ⟨c, others, isReverse⟩ :=
      List.exists_cons_of_ne_nil (List.reverse_ne_nil_iff.mpr notEmpty)
    rw [isReverse] at isNameReverse ⊢
    rintro other ⟨⟩
    simp [isNameReverse c List.mem_cons_self]
  have skipped := @Script.dropWhile_append (fun c => !Text.isNameChar c) marks _
    (fun c member => by rw [areMarks c member]; rfl) atName
  have taken : (name.reverse ++ more).takeWhile Text.isNameChar = name.reverse := by
    have split := Script.span_append isNameReverse stops
    rw [List.span_eq_takeWhile_dropWhile] at split
    exact congrArg Prod.fst split
  rw [lastName?, skipped, taken]
  simp [notEmpty]

theorem parameterName?_eq
    {parameter : List Char}
    (noDefault : '=' ∉ parameter)
    (trimmed : Text.trim parameter = declared)
    (isBackwards : dropBracketPairs declared.reverse = backwards)
    (noBlank : StopsAt Text.isBlank backwards)
    (notVoid : backwards.reverse ≠ "void".toList)
    (last : lastName? backwards = some name) :
    parameterName? parameter = some name := by
  have all : ∀ c ∈ parameter, decide (c ≠ '=') = true := by
    intro c member
    refine decide_eq_true ?_
    rintro rfl
    exact noDefault member
  have whole : parameter.span (fun c => decide (c ≠ '=')) = (parameter, []) := by
    have split := @Script.span_append _ parameter [] all .nil
    rwa [List.append_nil] at split
  have kept : backwards.dropWhile Text.isBlank = backwards :=
    @Script.dropWhile_append Text.isBlank [] backwards (by simp) noBlank
  have notEmpty : backwards ≠ [] := by
    rintro rfl
    contradiction
  have named : ¬ (backwards.isEmpty || decide (backwards.reverse = "void".toList)) = true := by
    rw [Bool.or_eq_true, List.isEmpty_iff, decide_eq_true_eq, not_or]
    exact ⟨notEmpty, notVoid⟩
  unfold parameterName?
  rw [whole]
  dsimp only
  rw [trimmed, isBackwards, kept, last, if_neg named]
  rfl

end Names

/-- What the rule that wraps functions takes for the name of a parameter. -/
def Parameter.keptName (parameter : Parameter) : List Char :=
  match parameter.shape with
  | .array size _ _ => size
  | .plain | .pointer | .reference | .items => parameter.name

section KeptNames

variable {name : List Char}

theorem IsName.reverse
    (isName : IsName name)
    (behind : List Char) :
    ∃ c rest, name.reverse ++ behind = c :: rest ∧ Text.isNameChar c = true := by
  obtain ⟨c, rest, isReverse⟩ :=
    List.exists_cons_of_ne_nil (List.reverse_ne_nil_iff.mpr isName.notEmpty)
  have member : c ∈ name := List.mem_reverse.mp (isReverse ▸ List.mem_cons_self)
  exact ⟨c, rest ++ behind, by rw [isReverse, List.cons_append], isName.isName c member⟩

/-- Read backwards, the declared name stands behind its brackets if they are empty. -/
theorem backwards_erased
    (isName : IsName name)
    (behind : List Char) :
    dropBracketPairs (name.reverse ++ behind) = name.reverse ++ behind ∧
      StopsAt Text.isBlank (name.reverse ++ behind) := by
  obtain ⟨c, rest, isText, isNameChar⟩ := isName.reverse behind
  rw [isText]
  refine ⟨dropBracketPairs_of_ne ?_, ?_⟩
  · rintro rfl
    contradiction
  · rintro other ⟨⟩
    exact not_isBlank_of_isNameChar isNameChar

theorem parameterName?_let
    {lead suffix kept backwards : List Char}
    (blank : ∀ c ∈ lead, Text.isBlank c = true)
    (noDefault : '=' ∉ lead ++ ("let ".toList ++ (name ++ suffix)))
    (ends : StopsAt Text.isBlank (suffix.reverse ++ (name.reverse ++ "let ".toList.reverse)))
    (isBackwards :
      dropBracketPairs (suffix.reverse ++ (name.reverse ++ "let ".toList.reverse)) = backwards)
    (noBlank : StopsAt Text.isBlank backwards)
    (notVoid : backwards.reverse ≠ "void".toList)
    (last : lastName? backwards = some kept) :
    parameterName? (lead ++ ("let ".toList ++ (name ++ suffix))) = some kept := by
  have reversed : ("let ".toList ++ (name ++ suffix)).reverse =
      suffix.reverse ++ (name.reverse ++ "let ".toList.reverse) := by
    rw [List.reverse_append, List.reverse_append, List.append_assoc]
  have starts : StopsAt Text.isBlank ("let ".toList ++ (name ++ suffix)) := by
    rintro c ⟨⟩
    rfl
  refine parameterName?_eq noDefault (trim_of_ends blank starts ?_) ?_ noBlank notVoid last
  · rw [reversed]
    exact ends
  · rw [reversed]
    exact isBackwards

end KeptNames

/-- A parameter is reduced to its name, or to the size between its brackets. -/
theorem Parameter.parameterName?_erased
    (parameter : Parameter)
    {lead : List Char}
    (blank : ∀ c ∈ lead, c = ' ') :
    parameterName? (lead ++ parameter.erased) = some parameter.keptName := by
  have isName := parameter.isName.isName
  have noDefault : '=' ∉ lead ++ parameter.erased := by
    rw [List.mem_append, not_or]
    refine ⟨fun member => absurd (blank _ member) (by decide), fun member => ?_⟩
    have notForeign := (parameter.isItem_erased.worded [] nofun .finish).not_isForeign
      (List.mem_append_left [] member)
    contradiction
  have isBlank : ∀ c ∈ lead, Text.isBlank c = true := fun c member => by
    rw [blank c member]
    rfl
  have behindName : StopsAt Text.isNameChar "let ".toList.reverse := by
    rintro c ⟨⟩
    rfl
  obtain ⟨kept, noBlank⟩ := backwards_erased isName "let ".toList.reverse
  have last := @lastName?_eq _ _ [] (by simp) isName.notEmpty isName.isName behindName
  unfold erased keptName at *
  generalize parameter.shape = shape at noDefault ⊢
  cases shape with
  | plain | pointer | reference =>
      exact parameterName?_let isBlank noDefault noBlank kept noBlank (by simp) last
  | items =>
      refine parameterName?_let isBlank noDefault ?_ kept noBlank (by simp) last
      rintro c ⟨⟩
      rfl
  | array size notEmptySize digits =>
      have reversed (behind : List Char) :
          (Shape.array size notEmptySize digits).suffix.reverse ++ behind =
            [']'] ++ (size.reverse ++ '[' :: behind) := by
        simp [Shape.suffix]
      obtain ⟨digit, others, isReverse⟩ :=
        List.exists_cons_of_ne_nil (List.reverse_ne_nil_iff.mpr notEmptySize)
      have isDigit : digit.isDigit = true :=
        digits digit (List.mem_reverse.mp (isReverse ▸ List.mem_cons_self))
      have notBracket : digit ≠ '[' := by
        rintro rfl
        contradiction
      have lastSize := @lastName?_eq size ('[' :: (parameter.name.reverse ++ "let ".toList.reverse))
        [']'] (by decide) notEmptySize
        (fun c member => Script.Nominal.isDigit c (digits c member)) (by rintro c ⟨⟩; rfl)
      refine parameterName?_let isBlank noDefault ?_ ?_ ?_ (by simp) lastSize
      · rw [reversed]
        rintro c ⟨⟩
        rfl
      · rw [reversed, isReverse]
        exact dropBracketPairs_of_filled notBracket
      · rintro c ⟨⟩
        rfl

/-- The parameters of a joined list are reduced one by one. -/
theorem filterMap_splitOn
    {parameters : List Parameter}
    (notEmpty : parameters ≠ [])
    {lead : List Char}
    (blank : ∀ c ∈ lead, c = ' ') :
    (splitOn ',' (lead ++ joinArguments (parameters.map Parameter.erased))).filterMap
        parameterName? =
      parameters.map Parameter.keptName := by
  induction parameters generalizing lead with
  | nil => contradiction
  | cons parameter parameters inductionHypothesis =>
      have noComma : ',' ∉ lead ++ parameter.erased := by
        rw [List.mem_append, not_or]
        refine ⟨fun member => absurd (blank _ member) (by decide), fun member => ?_⟩
        exact absurd (parameter.mem_erased member) (by decide)
      have here := parameter.parameterName?_erased blank
      cases parameters with
      | nil =>
          simp only [List.map_cons, List.map_nil, joinArguments_singleton]
          rw [splitOn_eq, List.splitOn_eq_singleton noComma, List.filterMap_cons_some here,
            List.filterMap_nil]
      | cons next parameters =>
          have others := inductionHypothesis (List.cons_ne_nil next parameters)
            (List.forall_mem_singleton.mpr (rfl : ' ' = ' '))
          rw [List.map_cons, List.map_cons, joinArguments_cons_cons, ← List.append_assoc,
            splitOn_eq, List.splitOn_append_cons_self_of_not_mem noComma, ← splitOn_eq,
            List.filterMap_cons_some here]
          exact congrArg _ others

namespace FunctionHeader

variable (header : FunctionHeader)

/-- The definition of the function that is left of a header. -/
def lowered : List Char :=
  headerText ("async function ".toList ++ header.name) (header.parameters.map Parameter.keptName)

theorem keyword_cases : ∃ keyword ∈ ["void", "let"], header.keyword = keyword.toList := by
  unfold keyword
  split
  · exact ⟨"void", by decide, rfl⟩
  · exact ⟨"let", by decide, rfl⟩

/-- The parameters of a header without types have words, blanks and brackets. -/
theorem mem_parameters
    {c : Char}
    (member : c ∈ joinArguments (header.parameters.map Parameter.erased)) :
    Text.isNameChar c = true ∨ c ∈ [' ', '[', ']', ','] := by
  rcases mem_joinArguments member with between | ⟨item, isItem, inItem⟩
  · have known : ∀ c ∈ [',', ' '], c ∈ [' ', '[', ']', ','] := by decide
    exact .inr (known c between)
  · obtain ⟨parameter, -, rfl⟩ := List.mem_map.mp isItem
    exact (parameter.mem_erased inItem).imp_right (List.mem_append_left [','])

theorem noParentheses :
    ∀ c ∈ joinArguments (header.parameters.map Parameter.erased), c ≠ '(' ∧ c ≠ ')' := by
  intro c member
  rcases header.mem_parameters member with isName | isMark
  · constructor <;>
      · rintro rfl
        contradiction
  · have known : ∀ c ∈ [' ', '[', ']', ','], c ≠ '(' ∧ c ≠ ')' := by decide
    exact known c isMark

/-- What the rule puts in the place of a matched header. -/
theorem functionHeader_eq
    {found : Match}
    (indent : found.group 1 = [])
    (isName : found.group 2 = header.name)
    (areParameters : found.group 3 = joinArguments (header.parameters.map Parameter.erased))
    (brace : found.group 4 = [' ', '\x7b']) :
    functionHeader found =
      some ("async function ".toList ++ (header.name ++ '(' ::
        (joinArguments (header.parameters.map Parameter.keptName) ++
          ')' :: [' ', '\x7b']))) := by
  have notReserved : (reservedWords.map String.toList).contains header.name = false := by
    rw [Bool.eq_false_iff, ne_eq, List.contains_iff_mem]
    intro member
    refine header.notReserved ?_
    rw [List.map_append]
    exact List.mem_append_left _ member
  have names : (splitOn ',' (joinArguments (header.parameters.map Parameter.erased))).filterMap
      parameterName? = header.parameters.map Parameter.keptName := by
    by_cases empty : header.parameters = []
    · rw [empty]
      rfl
    · exact @filterMap_splitOn header.parameters empty [] (by simp)
  simp only [functionHeader, indent, isName, areParameters, brace, notReserved, names,
    Bool.false_eq_true, if_false]
  simp

/-- The rule that wraps functions makes a function of a header without types. -/
theorem apply_functions : (functions.apply header.erased).1 = header.lowered := by
  obtain ⟨keyword, known, isKeyword⟩ := header.keyword_cases
  let old := keyword.toList ++ ([' '] ++ (header.name ++ '(' ::
    (joinArguments (header.parameters.map Parameter.erased) ++ ')' :: [' ', '\x7b'])))
  have whole : header.erased = old ++ ['\n', '\x7d'] := by
    simp [old, erased, headerText, isKeyword]
  have enough : (header.name ++ joinArguments (header.parameters.map Parameter.erased)).length + 1 ≤
      header.erased.length := by
    rw [whole]
    simp only [old, List.length_append, List.length_cons]
    omega
  have plain := header.worded_erased.plain
  have oneLine : '\n' ∉ old := by
    have noKeyword : ∀ keyword ∈ ["void", "let"], '\n' ∉ keyword.toList := by decide
    have noParameters :
        '\n' ∉ joinArguments (header.parameters.map Parameter.erased) :=
      fun member => absurd (header.mem_parameters member) (by decide)
    simp [old, noKeyword keyword known, header.isName.oneLine, noParameters]
  obtain ⟨found, matched, behind, indent, isName, areParameters, brace⟩ :=
    @matchAt?_functions header.erased.length _ _ ['\n', '\x7d'] keyword 0 known
      header.isName.isName header.noParentheses enough
  have onward (before : Option Char) :
      functions.Yields header.erased.length before ['\n', '\x7d'] ['\n', '\x7d'] :=
    .plain (by decide) (fun _ => matchAt?_eq_none_of_mayStart rfl (by decide))
      (.plain (by decide) (fun _ => matchAt?_eq_none_of_mayStart rfl (by decide)) .nil)
  have replaced := @Rule.outcome_replaced functions header.erased.length none ['\n', '\x7d']
    ['\n', '\x7d'] found old _ header.erased.length 0 0 (by simpa [old] using matched) behind
    (header.functionHeader_eq indent isName areParameters brace)
    (fun c member => plain c (whole ▸ List.mem_append_left _ member)) onward
    (by rw [whole])
  rw [← whole, keepLines_of_oneLine oneLine] at replaced
  have isLowered : header.lowered =
      ("async function ".toList ++ (header.name ++ '(' ::
        (joinArguments (header.parameters.map Parameter.keptName) ++ ')' :: [' ', '\x7b']))) ++
          ['\n', '\x7d'] := by
    simp [lowered, headerText]
  rw [isLowered]
  exact replaced

end FunctionHeader

end LedSketch.Sketch
