import LedSketch.Proofs.Sketch.Alignment
import LedSketch.Proofs.Sketch.CommentText
import LedSketch.Proofs.Sketch.ErasedHeaders
import LedSketch.Proofs.Sketch.Wrapping

namespace LedSketch.Sketch

/-!
# Lowered headers

No rule but two changes the header of a function: the one that erases types and the one that
wraps functions.  So what these two make of a header is what lowering makes of it.
-/

open Pattern Vocabulary Catalogue
open Script (StopsAt)

section Calls

variable {turns : Nat} {before : Option Char} {word rest passed : List Char}
  {taken : List (Nat × List Char)} {offset : Nat}

/-- White space and a parenthesis, as they stand behind the name of a function. -/
def IsOpening (text : List Char) : Prop :=
  ∃ gap more, (∀ c ∈ gap, Text.isBlank c = true) ∧ text = gap ++ '(' :: more

/-- A word ends in front of an opening parenthesis. -/
theorem IsOpening.stops
    {text : List Char}
    (opening : IsOpening text)
    (behind : List Char) :
    StopsAt Text.isNameChar (text ++ behind) := by
  obtain ⟨gap, more, blank, rfl⟩ := opening
  cases gap with
  | nil =>
      rintro c ⟨⟩
      rfl
  | cons first gap =>
      rintro c ⟨⟩
      exact Script.not_isNameChar_of_isBlank (blank first List.mem_cons_self)

/-- What such a pattern takes is an opening parenthesis with what follows. -/
theorem isOpening_of_takes
    {patterns : List Pattern}
    (takes : Takes (all (spaces :: mark '(' :: patterns)) passed taken) :
    IsOpening passed := by
  obtain ⟨gap, _, _, _, takesGap, takesMore, rfl, -⟩ := takes_all_cons takes
  obtain ⟨_, more, _, _, ⟨-, c, isMark, rfl⟩, -, rfl, -⟩ := takes_all_cons takesMore
  rw [of_decide_eq_true isMark]
  exact ⟨gap, more, fun c => takesGap.mayTake, rfl⟩

/-- The words that a match of the rule for delays begins with. -/
def delayWords : List String := ["await", "delayMicroseconds", "delay"]

/-- The rule that awaits delays takes one of their names. -/
theorem takes_awaitDelays (takes : Takes awaitDelays.pattern passed taken) :
    ∃ known ∈ delayWords, ∃ more, passed = known.toList ++ more ∧
      ∀ behind, StopsAt Text.isNameChar (more ++ behind) := by
  obtain ⟨_, _, _, _, takesFront, takesDelay, rfl, -⟩ := takes_all_cons takes
  obtain ⟨_, _, _, _, ⟨rfl, -⟩, takesCall, rfl, -⟩ := takes_all_cons takesDelay
  obtain ⟨called, opening, _, _, ⟨_, takesWord, -⟩, takesOpening, rfl, -⟩ :=
    takes_all_cons takesCall
  obtain ⟨known, isKnown, rfl⟩ := takes_words (List.cons_ne_nil _ _) takesWord
  rcases takesFront with ⟨_, takesAwait, -⟩ | ⟨rfl, -⟩
  · obtain ⟨_, _, _, _, ⟨rfl, -⟩, takesAwait, rfl, -⟩ := takes_all_cons takesAwait
    obtain ⟨await, gap, _, _, takesLiteral, takesGap, rfl, -⟩ := takes_all_cons takesAwait
    have isGap := IsGap.of_takes takesGap
    refine ⟨"await", by decide, gap ++ (known.toList ++ opening), ?_, fun behind => ?_⟩
    · rw [takes_literal takesLiteral]
      simp
    · rw [List.append_assoc]
      exact isGap.stops _
  · exact ⟨known, List.mem_cons_of_mem _ isKnown, opening, rfl,
      (isOpening_of_takes takesOpening).stops⟩

theorem isName_delayWords : ∀ known ∈ delayWords, ∀ c ∈ known.toList, Text.isNameChar c = true := by
  decide

/-- Only some words are delays that have to be awaited. -/
theorem matchAt?_awaitDelays
    (isName : ∀ c ∈ word, Text.isNameChar c = true)
    (unknown : word ∉ delayWords.map String.toList)
    (stops : StopsAt Text.isNameChar rest) :
    awaitDelays.pattern.matchAt? turns ⟨before, word ++ rest, offset⟩ = none := by
  refine matchAt?_eq_none fun passed taken behind takes _ whole => ?_
  obtain ⟨known, isKnown, more, rfl, stopsMore⟩ := takes_awaitDelays takes
  rw [List.append_assoc] at whole
  obtain ⟨same, -⟩ :=
    stretch_unique isName stops (isName_delayWords known isKnown) (stopsMore behind) whole
  exact unknown (same ▸ List.mem_map_of_mem isKnown)

/-- The rule that awaits delays matches only at the edges of words. -/
theorem isEdged_awaitDelays : awaitDelays.pattern.IsEdged := by
  intro turns cursor inside
  let start : Progress := ⟨cursor, []⟩
  have noAwait : Fails turns (.group 1 (all [.wordEdge, literal "await", spaces1])) start :=
    ⟨fun onward => by simp [all, search, start, inside]⟩
  have nothing : awaitDelays.pattern.search Text.isWordChar turns some start = none := by
    have split : awaitDelays.pattern =
        .seq (Pattern.optional (.group 1 (all [.wordEdge, literal "await", spaces1])))
          (.seq .wordEdge
            (all [.group 2 (words ["delayMicroseconds", "delay"]), spaces, mark '('])) :=
      rfl
    rw [split, search_seq, search_optional_of_fails noAwait]
    simp [search, start, inside]
  simp only [matchAt?, nothing, start]

/-- The rule for entry points takes `void`, a name and a parenthesis. -/
theorem takes_entryPoints (takes : Takes entryPoints.pattern passed taken) :
    ∃ gap name opening, IsGap gap ∧ name ∈ ["setup", "loop"] ∧ IsOpening opening ∧
      passed = "void".toList ++ (gap ++ (name.toList ++ opening)) := by
  obtain ⟨_, _, _, _, ⟨rfl, -⟩, takesEntry, rfl, -⟩ := takes_all_cons takes
  obtain ⟨_, _, _, _, takesVoid, takesBehind, rfl, -⟩ := takes_all_cons takesEntry
  obtain ⟨gap, _, _, _, takesGap, takesCall, rfl, -⟩ := takes_all_cons takesBehind
  obtain ⟨_, opening, _, _, ⟨_, takesName, -⟩, takesOpening, rfl, -⟩ := takes_all_cons takesCall
  obtain ⟨name, isName, rfl⟩ := takes_words (List.cons_ne_nil _ _) takesName
  refine ⟨gap, name, opening, .of_takes takesGap, isName, isOpening_of_takes takesOpening, ?_⟩
  rw [takes_literal takesVoid]

/-- The name of a function is no entry point. -/
theorem matchAt?_entryPoints_name
    (isName : ∀ c ∈ word, Text.isNameChar c = true) :
    entryPoints.pattern.matchAt? turns ⟨before, word ++ '(' :: rest, offset⟩ = none := by
  refine matchAt?_eq_none fun passed taken behind takes _ whole => ?_
  obtain ⟨gap, name, opening, isGap, -, -, rfl⟩ := takes_entryPoints takes
  have stops : StopsAt Text.isNameChar ('(' :: rest) := by
    rintro c ⟨⟩
    rfl
  rw [List.append_assoc, List.append_assoc] at whole
  obtain ⟨-, same⟩ := stretch_unique isName stops (by decide) (isGap.stops _) whole
  obtain ⟨notEmpty, blank⟩ := isGap
  obtain ⟨c, gap, rfl⟩ := List.exists_cons_of_ne_nil notEmpty
  cases same
  exact absurd (blank '(' List.mem_cons_self) (by decide)

/-- A function that is no entry point does not become one. -/
theorem matchAt?_entryPoints
    {keyword : String}
    (known : keyword ∈ ["void", "let"])
    (isName : IsName word)
    (other : word ∉ ["setup", "loop"].map String.toList) :
    entryPoints.pattern.matchAt? turns
        ⟨before, keyword.toList ++ ([' '] ++ (word ++ '(' :: rest)), offset⟩ = none := by
  refine matchAt?_eq_none fun passed taken behind takes _ whole => ?_
  obtain ⟨gap, name, opening, isGap, isEntry, isOpening, rfl⟩ := takes_entryPoints takes
  have isNameKeyword :
      ∀ keyword ∈ ["void", "let"], ∀ c ∈ keyword.toList, Text.isNameChar c = true := by
    decide
  have isNameEntry :
      ∀ name ∈ ["setup", "loop"],
        name.toList ≠ [] ∧ ∀ c ∈ name.toList, Text.isNameChar c = true := by
    decide
  obtain ⟨notEmpty, isNameName⟩ := isNameEntry name isEntry
  have stops : StopsAt Text.isNameChar ('(' :: rest) := by
    rintro c ⟨⟩
    rfl
  simp only [List.append_assoc] at whole
  obtain ⟨-, whole⟩ :=
    stretch_unique (isNameKeyword keyword known) (isGap_blank.stops _) (by decide) (isGap.stops _)
      whole
  obtain ⟨-, whole⟩ :=
    stretch_unique isGap_blank.blank (isName.begins _).noBlank isGap.blank
      (BeginsWord.of_word notEmpty isNameName _).noBlank whole
  obtain ⟨same, -⟩ :=
    stretch_unique isName.isName stops isNameName (isOpening.stops behind) whole
  exact other (same ▸ List.mem_map_of_mem isEntry)

end Calls

section Blanks

variable {turns : Nat} {text rest : List Char}

/-- Whether the rule for blanks at the ends of lines keeps a text. -/
def KeepsBlanks
    (turns : Nat)
    (text : List Char) :
    Prop :=
  ∀ before, trailingWhitespace.Yields turns before text text

namespace KeepsBlanks

/-- An empty text has no blanks. -/
theorem nil : KeepsBlanks turns [] := fun _ => .nil

/-- A blank in front of something else on its line is kept. -/
theorem blank
    {c : Char}
    (follows : rest.head? = some c)
    (isOther : c ≠ ' ' ∧ c ≠ '\t' ∧ c ≠ '\n')
    (onward : KeepsBlanks turns rest) :
    KeepsBlanks turns (' ' :: rest) := by
  refine fun before => .plain rfl (fun offset => ?_) (onward _)
  let start : Progress := ⟨⟨before, ' ' :: rest, offset⟩, []⟩
  have noMore : Fails turns Vocabulary.blank (Pattern.pass start) := by
    refine .of_mayStart rfl fun other isHead => ?_
    cases Option.some.inj (follows.symm.trans isHead)
    simp [Vocabulary.blank, oneOf, mayStart, isOther]
  have split : trailingWhitespace.pattern =
      .seq (.seq Vocabulary.blank (zeroOrMore Vocabulary.blank)) .lineEnd := rfl
  have taken (onward : Progress → Option Progress) :
      search Text.isWordChar turns Vocabulary.blank onward start = onward (Pattern.pass start) :=
    rfl
  have nothing : trailingWhitespace.pattern.search Text.isWordChar turns some start = none := by
    rw [split, search_seq, search_seq, taken, search_zeroOrMore_of_fails noMore]
    simp [search, atLineEnd, Pattern.pass, start, Cursor.next, follows, isOther]
  simp only [matchAt?, nothing, start]

/-- Text without blanks is kept. -/
theorem solid
    (plain : ∀ c ∈ text, isPlain c = true)
    (noBlank : ∀ c ∈ text, c ≠ ' ' ∧ c ≠ '\t')
    (onward : KeepsBlanks turns rest) :
    KeepsBlanks turns (text ++ rest) := by
  induction text with
  | nil => exact onward
  | cons c text inductionHypothesis =>
      obtain ⟨isPlain, plain⟩ := List.forall_mem_cons.mp plain
      obtain ⟨isOther, noBlank⟩ := List.forall_mem_cons.mp noBlank
      refine fun before => .plain isPlain (fun _ => matchAt?_eq_none_of_mayStart rfl ?_)
        (inductionHypothesis plain noBlank _)
      simp [trailingWhitespace, blanks1, Vocabulary.blank, oneOrMore, oneOf, mayStart, mayBeEmpty,
        isOther]

/-- A mark in front of a text is kept. -/
theorem mark
    {c : Char}
    (isMark : c ∈ headerMarks)
    (onward : KeepsBlanks turns rest) :
    KeepsBlanks turns (c :: rest) := by
  have known : ∀ c ∈ headerMarks, isPlain c = true ∧ c ≠ ' ' ∧ c ≠ '\t' := by decide
  obtain ⟨isPlain, isOther⟩ := known c isMark
  exact @solid turns [c] rest (by simp [isPlain]) (by simp [isOther]) onward

/-- A word in front of a text is kept. -/
theorem word
    (isName : ∀ c ∈ text, Text.isNameChar c = true)
    (onward : KeepsBlanks turns rest) :
    KeepsBlanks turns (text ++ rest) :=
  solid (fun c member => isPlain_of_isNameChar (isName c member))
    (fun c member => not_blank_of_isNameChar (isName c member)) onward

/-- A blank in front of a word is kept. -/
theorem blank_word
    (begins : BeginsWord rest)
    (onward : KeepsBlanks turns rest) :
    KeepsBlanks turns (' ' :: rest) := by
  obtain ⟨c, isHead, isName⟩ := begins
  obtain ⟨notBlank, notTab⟩ := not_blank_of_isNameChar isName
  refine blank isHead ⟨notBlank, notTab, ?_⟩ onward
  rintro rfl
  contradiction

/-- Joined names in front of a text are kept, with the blanks between them. -/
theorem joinArguments
    {names : List (List Char)}
    (areNames : ∀ name ∈ names, name ≠ [] ∧ ∀ c ∈ name, Text.isNameChar c = true)
    (onward : KeepsBlanks turns rest) :
    KeepsBlanks turns (joinArguments names ++ rest) := by
  induction names with
  | nil => exact onward
  | cons name names inductionHypothesis =>
      obtain ⟨⟨_, isName⟩, others⟩ := List.forall_mem_cons.mp areNames
      cases names with
      | nil =>
          rw [joinArguments_singleton]
          exact word isName onward
      | cons next names =>
          obtain ⟨notEmpty, isNext⟩ := others next List.mem_cons_self
          have begins : BeginsWord (Sketch.joinArguments (next :: names) ++ rest) := by
            cases names with
            | nil =>
                rw [joinArguments_singleton]
                exact .of_word notEmpty isNext rest
            | cons later names =>
                rw [joinArguments_cons_cons, List.append_assoc]
                exact .of_word notEmpty isNext _
          rw [joinArguments_cons_cons, List.append_assoc]
          exact word isName (mark (by decide) (blank_word begins (inductionHypothesis others)))

end KeepsBlanks

end Blanks

theorem Parameter.oneLine_text (parameter : Parameter) : '\n' ∉ parameter.text := by
  rw [parameter.text_eq, List.mem_append, not_or]
  refine ⟨parameter.notMem_declaration, ?_⟩
  cases parameter.shape with
  | plain | pointer | reference | items => decide
  | array size notEmpty digits =>
      have noSize : '\n' ∉ size := fun member => absurd (digits _ member) (by decide)
      simp [Shape.suffix, noSize]

namespace FunctionHeader

variable (header : FunctionHeader)

/-- A rule for calls leaves a header as it is if it matches neither its words nor its name. -/
theorem apply_of_called
    {rule : Rule}
    (edged : rule.pattern.IsEdged)
    (needs : Needs (fun c => decide (c = '(')) rule.pattern)
    (noStart : ∀ c ∈ [' ', '('], rule.pattern.mayStart c = false)
    (noKeyword :
      ∀ keyword ∈ ["void", "let"], ∀ turns before rest offset,
        rule.pattern.matchAt? turns
          ⟨before, keyword.toList ++ ([' '] ++ (header.name ++ '(' :: rest)), offset⟩ = none)
    (noName :
      ∀ turns before rest offset,
        rule.pattern.matchAt? turns ⟨before, header.name ++ '(' :: rest, offset⟩ = none) :
    (rule.apply header.erased).1 = header.erased := by
  obtain ⟨keyword, known, isKeyword⟩ := header.keyword_cases
  let later := joinArguments (header.parameters.map Parameter.erased) ++
    [')', ' ', '\x7b', '\n', '\x7d']
  have whole :
      header.erased = keyword.toList ++ ([' '] ++ (header.name ++ '(' :: later)) := by
    simp [erased, headerText, isKeyword, later]
  have plain := header.worded_erased.plain
  have ofLater (before : Option Char) : rule.Yields header.erased.length before later later := by
    refine .of_needs (fun c member => plain c ?_) needs fun c member => decide_eq_false ?_
    · simp [whole, member]
    · rintro rfl
      rcases List.mem_append.mp member with inParameters | inEnding
      · exact (header.noParentheses _ inParameters).1 rfl
      · contradiction
  have ofOpening (before : Option Char) :
      rule.Yields header.erased.length before ('(' :: later) ('(' :: later) :=
    .plain rfl (fun _ => matchAt?_eq_none_of_mayStart rfl (noStart '(' (by decide))) (ofLater _)
  have ofName (before : Option Char) :
      rule.Yields header.erased.length before (header.name ++ '(' :: later)
        (header.name ++ '(' :: later) :=
    .word edged header.isName.isName.notEmpty header.isName.isName.isName
      (fun offset => noName _ _ _ offset) ofOpening
  have ofBlank (before : Option Char) :
      rule.Yields header.erased.length before ([' '] ++ (header.name ++ '(' :: later))
        ([' '] ++ (header.name ++ '(' :: later)) :=
    .plain rfl (fun _ => matchAt?_eq_none_of_mayStart rfl (noStart ' ' (by decide))) (ofName _)
  have isWord :
      ∀ keyword ∈ ["void", "let"],
        keyword.toList ≠ [] ∧ ∀ c ∈ keyword.toList, Text.isNameChar c = true := by
    decide
  have ofKeyword :=
    @Rule.Yields.word _ _ none _ _ _ edged (isWord keyword known).1 (isWord keyword known).2
      (fun offset => noKeyword keyword known header.erased.length _ later offset) ofBlank
  rw [← whole] at ofKeyword
  exact Rule.apply_of_yields ofKeyword

/-- A pattern with an opening parenthesis in it takes one. -/
theorem needs_opening
    {patterns : List Pattern}
    (member : mark '(' ∈ patterns) :
    Needs (fun c => decide (c = '(')) (all patterns) :=
  .all (.char fun _ isMark => isMark) member

/-- No delay is awaited in a header. -/
theorem apply_awaitDelays : (awaitDelays.apply header.erased).1 = header.erased := by
  have unknown : header.name ∉ delayWords.map String.toList := fun member =>
    header.notReserved (List.map_subset String.toList (by decide) member)
  refine header.apply_of_called isEdged_awaitDelays (needs_opening (by simp)) (by decide) ?_ ?_
  · intro keyword known turns before rest offset
    have isName :
        ∀ keyword ∈ ["void", "let"],
          (∀ c ∈ keyword.toList, Text.isNameChar c = true) ∧
            keyword.toList ∉ delayWords.map String.toList := by
      decide
    exact matchAt?_awaitDelays (isName keyword known).1 (isName keyword known).2
      (isGap_blank.stops _)
  · intro turns before rest offset
    refine matchAt?_awaitDelays header.isName.isName.isName unknown ?_
    rintro c ⟨⟩
    rfl

/-- A header that is awaited already is not awaited again. -/
theorem apply_entryPoints : (entryPoints.apply header.erased).1 = header.erased := by
  have other : header.name ∉ ["setup", "loop"].map String.toList := fun member =>
    header.notReserved (List.map_subset String.toList (by decide) member)
  refine header.apply_of_called .wordEdge (needs_opening (by simp)) (by decide) ?_ ?_
  · intro keyword known turns before rest offset
    exact matchAt?_entryPoints known header.isName.isName other
  · intro turns before rest offset
    exact matchAt?_entryPoints_name header.isName.isName.isName

theorem areNames :
    ∀ name ∈ header.parameters.map Parameter.keptName,
      name ≠ [] ∧ ∀ c ∈ name, Text.isNameChar c = true := by
  simp only [List.mem_map, forall_exists_index, and_imp, forall_apply_eq_imp_iff₂]
  intro parameter _
  have isName := parameter.isName.isName
  unfold Parameter.keptName
  cases parameter.shape with
  | plain | pointer | reference | items => exact ⟨isName.notEmpty, isName.isName⟩
  | array size notEmpty digits =>
      exact ⟨notEmpty, fun c member => Script.Nominal.isDigit c (digits c member)⟩

/-- A lowered header has no blanks at the end. -/
theorem apply_trailingWhitespace :
    (trailingWhitespace.apply header.lowered).1 = header.lowered := by
  let turns := header.lowered.length
  have ending : KeepsBlanks turns [')', ' ', '\x7b', '\n', '\x7d'] :=
    .mark (by decide) (.blank rfl (by decide)
      (@KeepsBlanks.solid turns ['\x7b', '\n', '\x7d'] [] (by decide) (by decide) .nil))
  have called :
      KeepsBlanks turns (header.name ++ '(' ::
        (joinArguments (header.parameters.map Parameter.keptName) ++
          [')', ' ', '\x7b', '\n', '\x7d'])) :=
    .word header.isName.isName.isName (.mark (by decide) (.joinArguments header.areNames ending))
  have defined :=
    @KeepsBlanks.word turns "function".toList _ (by decide)
      (.blank_word (header.isName.isName.begins _) called)
  have whole :=
    @KeepsBlanks.word turns "async".toList _ (by decide) (.blank_word ⟨'f', rfl, rfl⟩ defined)
  have split : header.lowered =
      "async".toList ++ ' ' :: ("function".toList ++ ' ' :: (header.name ++ '(' ::
        (joinArguments (header.parameters.map Parameter.keptName) ++
          [')', ' ', '\x7b', '\n', '\x7d']))) := by
    simp [lowered, headerText]
  rw [← split] at whole
  exact Rule.apply_of_yields (whole none)

theorem oneLine_parameters : '\n' ∉ joinArguments (header.parameters.map Parameter.text) := by
  intro member
  rcases mem_joinArguments member with between | ⟨item, isItem, inItem⟩
  · contradiction
  · obtain ⟨parameter, -, rfl⟩ := List.mem_map.mp isItem
    exact parameter.oneLine_text inItem

/-- The ends of lines of a header are plain. -/
theorem unifyLineEnds_text : unifyLineEnds header.text = header.text := by
  have noResult : '\n' ∉ header.result := by
    rcases header.isResult with isVoid | ⟨-, oneLine⟩
    · rw [isVoid]
      decide
    · exact oneLine
  let front := header.result ++ ' ' :: (header.name ++ '(' ::
    (joinArguments (header.parameters.map Parameter.text) ++ [')', ' ']))
  have oneLine : '\n' ∉ front := by
    simp [front, noResult, header.isName.oneLine, header.oneLine_parameters]
  have whole : header.text = front ++ ['\x7b', '\n', '\x7d'] := by
    simp [front, text, headerText]
  rw [whole, unifyLineEnds_append (by decide), unifyLineEnds_of_notMem oneLine]
  rfl

end FunctionHeader

/-- Rules that change nothing one by one change nothing together. -/
theorem foldl_apply_eq_self
    {rules : List Rule}
    {text : List Char}
    (idle : ∀ rule ∈ rules, (rule.apply text).1 = text) :
    rules.foldl (fun text rule => (rule.apply text).1) text = text := by
  induction rules with
  | nil => rfl
  | cons rule rules inductionHypothesis =>
      obtain ⟨here, others⟩ := List.forall_mem_cons.mp idle
      rw [List.foldl_cons, here, inductionHypothesis others]

/-- The rules before the one that erases types. -/
def rulesBeforeErasure : List Rule :=
  [comments, defineConstants, directives, colorOrders, frequencySuffix, frequencyPrefix,
    staticHelpers, arrows, integerSuffixes, prototypes]

/-- The rules between the one that erases types and the one that wraps functions. -/
def rulesBeforeWrapping : List Rule :=
  [arrayInitialisers, arrayDeclarations, stripAssignments, stripDeclarations, buttonAllocations,
    buttonDeclarations, awaitDelays, entryPoints]

/-- The rules around the erasure and the wrapping of functions. -/
theorem rules_split :
    rules =
      rulesBeforeErasure ++ declarators ::
        (rulesBeforeWrapping ++ [functions, trailingWhitespace]) :=
  rfl

/-- What comes before the erasure has no part in headers. -/
theorem mem_rulesBeforeErasure
    {rule : Rule}
    (member : rule ∈ rulesBeforeErasure) :
    rule ∈ foreignRules ∨ rule = colorOrders ∨ rule = integerSuffixes := by
  simp only [rulesBeforeErasure, foreignRules, List.mem_cons, List.not_mem_nil, or_false]
    at member ⊢
  tauto

/-- What comes before the wrapping has no part in headers. -/
theorem mem_rulesBeforeWrapping
    {rule : Rule}
    (member : rule ∈ rulesBeforeWrapping) :
    rule ∈ foreignRules ∨ rule = awaitDelays ∨ rule = entryPoints := by
  simp only [rulesBeforeWrapping, foreignRules, List.mem_cons, List.not_mem_nil, or_false]
    at member ⊢
  tauto

/--
The header of a function is lowered to its name and the names of its parameters.  Of an array
with a size, the size stands in the place of the name.
-/
theorem header_lowered (header : FunctionHeader) :
    (lower header.text).text = header.lowered := by
  have beforeErasure : ∀ rule ∈ rulesBeforeErasure, (rule.apply header.text).1 = header.text := by
    obtain ⟨idleOrders, idleSuffixes⟩ := apply_edgeRules header.worded_text
    intro rule member
    rcases mem_rulesBeforeErasure member with foreign | rfl | rfl
    · exact apply_foreignRule header.worded_text rule foreign
    · exact idleOrders
    · exact idleSuffixes
  have beforeWrapping :
      ∀ rule ∈ rulesBeforeWrapping, (rule.apply header.erased).1 = header.erased := by
    intro rule member
    rcases mem_rulesBeforeWrapping member with foreign | rfl | rfl
    · exact apply_foreignRule header.worded_erased rule foreign
    · exact header.apply_awaitDelays
    · exact header.apply_entryPoints
  calc
    (lower header.text).text =
        rules.foldl (fun text rule => (rule.apply text).1) (unifyLineEnds header.text) :=
      lastText_eq_foldl (fun _ member => member) _
    _ = header.lowered := by
      rw [header.unifyLineEnds_text]
      rw [rules_split, List.foldl_append, foldl_apply_eq_self beforeErasure, List.foldl_cons,
        header.apply_declarators, List.foldl_append, foldl_apply_eq_self beforeWrapping,
        List.foldl_cons, header.apply_functions, List.foldl_cons, header.apply_trailingWhitespace,
        List.foldl_nil]

theorem takes_int : Takes (any numericTypes) "int".toList [] := by
  have ofChar (c : Char) : Takes (mark c) [c] [] := ⟨rfl, c, decide_eq_true rfl, rfl⟩
  have ofWord : Takes (literal "int") "int".toList [] :=
    ⟨['i'], ['n', 't'], [], [], ofChar 'i',
      ⟨['n'], ['t'], [], [], ofChar 'n', ofChar 't', rfl, rfl⟩, rfl, rfl⟩
  exact .inr (.inr (.inr (.inr (.inr (.inl ofWord)))))

/-- A header whose parameter is lowered to the size of an array and not to its name. -/
theorem header_lowered_to_size :
    ∃ header : FunctionHeader,
      header.text = "void f(int x[10]) \x7b\n\x7d".toList ∧
        (lower header.text).text = "async function f(10) \x7b\n\x7d".toList ∧
          (lower header.text).text ≠
            headerText ("async function ".toList ++ header.name)
              (header.parameters.map Parameter.name) := by
  have isHeaderName (letter : Char) (known : letter ∈ ['f', 'x']) : IsHeaderName [letter] := by
    simp only [List.mem_cons, List.not_mem_nil, or_false] at known
    rcases known with rfl | rfl <;>
      exact ⟨⟨⟨_, rfl, rfl⟩, by decide⟩, by decide, by decide⟩
  let items : Parameter :=
    ⟨false, false, "int".toList, .array "10".toList (by decide) (by decide), ['x'], takes_int,
      by decide, isHeaderName 'x' (by decide)⟩
  have isLowered :
      (lower "void f(int x[10]) \x7b\n\x7d".toList).text =
        "async function f(10) \x7b\n\x7d".toList := by
    decide +kernel
  have notName :
      "async function f(10) \x7b\n\x7d".toList ≠ "async function f(x) \x7b\n\x7d".toList := by
    decide
  refine ⟨⟨"void".toList, ['f'], [items], .inl rfl, isHeaderName 'f' (by decide), by decide⟩,
    rfl, isLowered, fun same => notName (isLowered.symm.trans same)⟩

end LedSketch.Sketch
