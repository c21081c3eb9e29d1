import LedSketch.Proofs.Pattern.Taken
import LedSketch.Proofs.Sketch.Parameters
import LedSketch.Proofs.Sketch.Replaced

namespace LedSketch.Sketch

/-!
# Literals carried over

Outside of comments the matches of most rules have no literals.  The other rules carry the
part of a match that has its literals over to the replacement.
-/

open Pattern

/-- The characters that open literals or comments. -/
def openings : List Char := ['"', '\'', '/']

theorem isPlain_iff_notMem {c : Char} : isPlain c = true ↔ c ∉ openings := by
  simp [isPlain, isUnquoted, openings, and_assoc]

/-- What stands between the first opening character of a text and the closing one behind it. -/
def enclosed
    (opening closing : Char)
    (text : List Char) :
    List Char :=
  ((text.dropWhile (· ≠ opening)).drop 1).takeWhile (· ≠ closing)

theorem enclosed_eq
    {opening closing : Char}
    {lead inside : List Char}
    (notOpened : opening ∉ lead)
    (notClosed : closing ∉ inside)
    (tail : List Char) :
    enclosed opening closing (lead ++ opening :: (inside ++ closing :: tail)) = inside := by
  have ahead : ∀ c ∈ lead, decide (c ≠ opening) = true := by
    rintro c member
    simpa using ne_of_mem_of_not_mem member notOpened
  have within : ∀ c ∈ inside, decide (c ≠ closing) = true := by
    rintro c member
    simpa using ne_of_mem_of_not_mem member notClosed
  unfold enclosed
  rw [List.dropWhile_append_of_pos ahead, List.dropWhile_cons_of_neg (by simp), List.drop_succ_cons,
    List.drop_zero, List.takeWhile_append_of_pos within, List.takeWhile_cons_of_neg (by simp),
    List.append_nil]

/-- A text that is the same in front of whatever follows, with all literals of a match. -/
def Carries
    (new : List Char)
    (literals : List (List Char)) :
    Prop :=
  ∃ others, (∀ following, CodeText following new others) ∧ literals.Sublist others

namespace Carries

variable {new made old : List Char} {literals : List (List Char)}

theorem of_isPlain
    (plain : ∀ c ∈ new, isPlain c = true) :
    Carries new [] :=
  ⟨[], fun _ => .of_isPlain plain, List.Sublist.refl []⟩

/-- Line ends that are added bring no literals. -/
theorem keepLines (carries : Carries made literals) : Carries (keepLines old made) literals := by
  obtain ⟨others, code, kept⟩ := carries
  refine ⟨others, fun following => ?_, kept⟩
  have added {following : Option Char} {count : Nat} :
      CodeText following (List.replicate count '\n') [] :=
    .of_isPlain fun c member => by
      rw [List.eq_of_mem_replicate member]
      rfl
  have both := (code _).append (@added following (old.count '\n' - made.count '\n'))
  rwa [List.append_nil] at both

/-- Literals are carried over into other plain text. -/
theorem surround
    {front carried back : List Char}
    {c : Char}
    (code : CodeText (some c) carried literals)
    (plainFront : ∀ c ∈ front, isPlain c = true)
    (plainBack : ∀ other ∈ c :: back, isPlain other = true) :
    Carries (front ++ carried ++ c :: back) literals := by
  refine ⟨literals, fun following => ?_, List.Sublist.refl literals⟩
  have onward : CodeText following (c :: back) [] := .of_isPlain plainBack
  have inside : CodeText ((c :: back).head?.or following) carried literals := code
  have whole := (CodeText.of_isPlain plainFront).append (inside.append onward)
  simpa using whole

end Carries

/-- What has no quotes around it has all literals of a text. -/
theorem CodeText.inner
    {following : Option Char}
    {front carried back : List Char}
    {literals : List (List Char)}
    (code : CodeText following (front ++ carried ++ back) literals)
    (unquotedFront : ∀ c ∈ front, c ∉ quotes)
    (unquotedBack : ∀ c ∈ back, c ∉ quotes) :
    CodeText (back.head?.or following) carried literals := by
  rw [List.append_assoc] at code
  obtain ⟨_, rest⟩ := code.split_unquoted_left fun c member =>
    isUnquoted_iff_notMem.mpr (unquotedFront c member)
  exact (rest.split_unquoted_right fun c member =>
    isUnquoted_iff_notMem.mpr (unquotedBack c member)).1

section Rules

variable {found : Match} {following : Option Char} {literals : List (List Char)}

/-- A match without openings has no literals, and a replacement without them needs none. -/
theorem carries_of_plain
    {pattern : Pattern}
    (takes : Takes pattern found.text (found.groups.map Group.numbered))
    (none : pattern.takesNone openings = true)
    (code : CodeText following found.text literals)
    {made : List Char}
    (plain : (∀ c ∈ found.text, isPlain c = true) → ∀ c ∈ made, isPlain c = true) :
    Carries made literals := by
  have plainText : ∀ c ∈ found.text, isPlain c = true :=
    fun c member => isPlain_iff_notMem.mpr (takes.notMem none c member)
  obtain rfl := code.literals_eq_nil fun c member => isUnquoted_of_isPlain (plainText c member)
  exact .of_isPlain (plain plainText)

/-- Whether a part of a template has none of some characters for the matches of a pattern. -/
def Part.avoids
    (refused : List Char)
    (pattern : Pattern) :
    Part → Bool
  | .text fixed => fixed.toList.all fun c => c ∉ refused
  | .group number => pattern.remembersNone refused number

theorem notMem_expand
    {refused : List Char}
    {pattern : Pattern}
    (takes : Takes pattern found.text (found.groups.map Group.numbered))
    {parts : List Part}
    (avoids : parts.all (Part.avoids refused pattern) = true) :
    ∀ c ∈ parts.flatMap (Part.expand found), c ∉ refused := by
  intro c member
  obtain ⟨part, isPart, inPart⟩ := List.mem_flatMap.mp member
  have partAvoids := List.all_eq_true.mp avoids part isPart
  cases part with
  | text fixed => exact of_decide_eq_true (List.all_eq_true.mp partAvoids c inPart)
  | group number => exact Match.notMem_group takes partAvoids c inPart

theorem isPlain_expand
    {pattern : Pattern}
    (takes : Takes pattern found.text (found.groups.map Group.numbered))
    {parts : List Part}
    (plain : parts.all (Part.avoids openings pattern) = true) :
    ∀ c ∈ parts.flatMap (Part.expand found), isPlain c = true :=
  fun c member => isPlain_iff_notMem.mpr (notMem_expand takes plain c member)

/-- A template without openings carries the literals of matches without them. -/
theorem carries_of_plain_template
    {rule : Rule}
    {parts : List Part}
    (takes : Takes rule.pattern found.text (found.groups.map Group.numbered))
    (none : rule.pattern.takesNone openings = true)
    (plain : parts.all (Part.avoids openings rule.pattern) = true)
    (code : CodeText following found.text literals) :
    Carries (parts.flatMap (Part.expand found)) literals :=
  carries_of_plain takes none code fun _ => isPlain_expand takes plain

/-- A template with a name, and with a group that has no quotes around it in a match. -/
theorem carries_of_group_template
    (rule : Rule)
    {front back : List Char}
    {named carried : Nat}
    {before between after : String}
    {c : Char}
    {behind : List Char}
    (whole : found.text = front ++ found.group carried ++ back)
    (unquotedFront : ∀ c ∈ front, c ∉ quotes)
    (unquotedBack : ∀ c ∈ back, c ∉ quotes)
    (takes : Takes rule.pattern found.text (found.groups.map Group.numbered))
    (plainFront :
      [Part.text before, .group named, .text between].all
        (Part.avoids openings rule.pattern) = true)
    (isAfter : after.toList = c :: behind)
    (plainBehind : (c :: behind).all isPlain = true)
    (notStar : c ≠ '*')
    (code : CodeText following found.text literals) :
    Carries
      ([Part.text before, .group named, .text between, .group carried, .text after].flatMap
        (Part.expand found)) literals := by
  have plainAfter := isPlain_of_all plainBehind
  have opensNot : opensNothing (some c) := by
    rintro other ⟨⟩
    have plain := plainAfter c List.mem_cons_self
    exact ⟨by rintro rfl; contradiction, notStar⟩
  rw [whole] at code
  have carries := Carries.surround ((code.inner unquotedFront unquotedBack).follow opensNot)
    (isPlain_expand takes plainFront) plainAfter
  simpa [Part.expand, isAfter] using carries

/-- The same where no pattern around the group takes quotes. -/
theorem carries_of_quoteless_template
    (rule : Rule)
    (first second : List Pattern)
    {body : Pattern}
    {named carried : Nat}
    {before between after : String}
    {c : Char}
    {behind : List Char}
    (isPattern : rule.pattern = all (first ++ .group carried body :: second))
    (takes : Takes rule.pattern found.text (found.groups.map Group.numbered))
    (notAgain : (all second).hasGroup carried = false)
    (noneFirst : (all first).takesNone quotes = true)
    (noneSecond : (all second).takesNone quotes = true)
    (plainFront :
      [Part.text before, .group named, .text between].all
        (Part.avoids openings rule.pattern) = true)
    (isAfter : after.toList = c :: behind)
    (plainBehind : (c :: behind).all isPlain = true)
    (notStar : c ≠ '*')
    (code : CodeText following found.text literals) :
    Carries
      ([Part.text before, .group named, .text between, .group carried, .text after].flatMap
        (Part.expand found)) literals := by
  obtain ⟨front, back, _, _, _, takesFirst, _, takesSecond, whole⟩ :=
    Match.around_group (isPattern ▸ takes) notAgain
  exact carries_of_group_template rule whole (takesFirst.notMem noneFirst)
    (takesSecond.notMem noneSecond) takes plainFront isAfter plainBehind notStar code

end Rules

namespace Catalogue

open Vocabulary

variable {found : Match} {following : Option Char} {made : List Char}
  {literals : List (List Char)}

/-- The name of a color order becomes a literal, where none was. -/
theorem carries_colorOrders
    (takes : Takes colorOrders.pattern found.text (found.groups.map Group.numbered))
    (code : CodeText following found.text literals) :
    Carries ([Part.text "\"", .group 1, .text "\""].flatMap (Part.expand found)) literals := by
  have unquoted : ∀ c ∈ found.text, isUnquoted c = true := fun c member =>
    isUnquoted_iff_notMem.mpr (takes.notMem (by decide) c member)
  obtain rfl := code.literals_eq_nil unquoted
  have others : ∀ c ∈ found.group 1, c ∉ ['"', '\\', '\n'] := Match.notMem_group takes (by decide)
  have inside {inner : List Char} (others : ∀ c ∈ inner, c ∉ ['"', '\\', '\n']) :
      Script.Lexeme.Inside '"' inner inner := by
    induction inner with
    | nil => exact .nothing
    | cons c inner inductionHypothesis =>
        obtain ⟨here, later⟩ := List.forall_mem_cons.mp others
        simp only [List.mem_cons, List.not_mem_nil, or_false, not_or] at here
        exact .plain here.1 here.2.1 here.2.2 (inductionHypothesis later)
  refine ⟨['"' :: (found.group 1 ++ ['"'])], fun following => ?_, List.nil_sublist _⟩
  have literal := CodeText.literal (.inl rfl) (inside others) (@CodeText.finish following)
  simpa [Part.expand] using literal

theorem carries_declarators
    (takes : Takes declarators.pattern found.text (found.groups.map Group.numbered))
    (code : CodeText following found.text literals) :
    Carries (eraseType found) literals := by
  refine carries_of_plain takes (by decide) code fun plain => ?_
  have plainName := @isPlain_expand found declarators.pattern takes [.text "let ", .group 1]
    (by decide)
  unfold eraseType
  split
  · exact plain
  · simpa [Part.expand] using plainName

theorem carries_awaitDelays
    (takes : Takes awaitDelays.pattern found.text (found.groups.map Group.numbered))
    (code : CodeText following found.text literals) :
    Carries (awaitDelay found) literals := by
  refine carries_of_plain takes (by decide) code fun plain => ?_
  have plainCall := @isPlain_expand found awaitDelays.pattern takes
    [.text "await ", .group 2, .text "("] (by decide)
  unfold awaitDelay
  split
  · exact plain
  · simpa [Part.expand] using plainCall

theorem carries_defineConstants
    (takes : Takes defineConstants.pattern found.text (found.groups.map Group.numbered))
    (code : CodeText following found.text literals) :
    Carries
      ([Part.text "let ", .group 1, .text " = ", .group 2, .text ";"].flatMap (Part.expand found))
      literals := by
  let first : List Pattern :=
    [.lineStart, blanks, mark '#', blanks, literal "define", blanks1, .group 1 name, blanks1]
  exact carries_of_quoteless_template defineConstants first [blanks, .lineEnd] rfl takes
    (by decide) (by decide) (by decide) (by decide) rfl (by decide) (by decide) code

theorem carries_arrayDeclarations
    (takes : Takes arrayDeclarations.pattern found.text (found.groups.map Group.numbered))
    (code : CodeText following found.text literals) :
    Carries
      ([Part.text "let ", .group 1, .text " = array(", .group 2, .text ");"].flatMap
        (Part.expand found)) literals := by
  let first : List Pattern :=
    [.wordEdge, literal "let", spaces1, .group 1 name, spaces, mark '[']
  exact carries_of_quoteless_template arrayDeclarations first [mark ']', spaces, mark ';'] rfl
    takes (by decide) (by decide) (by decide) (by decide) rfl (by decide) (by decide) code

theorem carries_buttonDeclarations
    (takes : Takes buttonDeclarations.pattern found.text (found.groups.map Group.numbered))
    (code : CodeText following found.text literals) :
    Carries
      ([Part.text "let ", .group 2, .text " = createButton(", .group 3, .text ");"].flatMap
        (Part.expand found)) literals := by
  let first : List Pattern :=
    [.wordEdge, .group 1 (.seq (optional name) (literal "Button")), spaces1, .group 2 name,
      spaces, mark '(', spaces]
  exact carries_of_quoteless_template buttonDeclarations first [spaces, mark ')', spaces, mark ';']
    rfl takes (by decide) (by decide) (by decide) (by decide) rfl (by decide) (by decide) code

theorem carries_buttonAllocations
    (takes : Takes buttonAllocations.pattern found.text (found.groups.map Group.numbered))
    (changed : constructButton found ≠ found.text)
    (code : CodeText following found.text literals) :
    Carries (constructButton found) literals := by
  let first : List Pattern :=
    [.wordEdge, .group 1 name, spaces, optional (mark '*'), spaces, .group 2 name, spaces,
      mark '=', spaces, literal "new", spaces1, .group 3 name, spaces, mark '(', spaces]
  have made : Carries
      ([Part.text "let ", .group 2, .text " = createButton(", .group 4, .text ");"].flatMap
        (Part.expand found)) literals :=
    carries_of_quoteless_template buttonAllocations first [spaces, mark ')', spaces, mark ';'] rfl
      takes (by decide) (by decide) (by decide) (by decide) rfl (by decide) (by decide) code
  unfold constructButton at changed ⊢
  dsimp only at changed ⊢
  split
  · next kept => exact absurd (if_pos kept) changed
  · simpa [Part.expand] using made

/-- What a match has in front of the items of an array has no quotes if the size has none. -/
theorem unquoted_front_of_size
    {front : List Char}
    {taken : List (Nat × List Char)}
    (takes :
      Takes
        (all [.wordEdge, literal "let", spaces1, .group 1 name, spaces, mark '[',
          zeroOrMore (noneOf [']', '\n']), mark ']', spaces, mark '=', spaces, mark '\x7b'])
        front taken)
    (rest : List Char)
    (unquotedSize : ∀ c ∈ enclosed '[' ']' (front ++ rest), c ∉ quotes) :
    ∀ c ∈ front, c ∉ quotes := by
  let declared : List Pattern := [.wordEdge, literal "let", spaces1, .group 1 name, spaces]
  let sized : List Pattern :=
    [mark '[', zeroOrMore (noneOf [']', '\n']), mark ']', spaces, mark '=', spaces, mark '\x7b']
  have parts : Takes (all (declared ++ sized)) front taken := takes
  obtain ⟨lead, others, _, _, takesLead, takesOthers, rfl, -⟩ := takes_all_append parts
  obtain ⟨opening, inside, _, _, takesOpening, takesInside, rfl, -⟩ := takes_all_cons takesOthers
  obtain ⟨size, behind, _, _, takesSize, takesBehind, rfl, -⟩ := takes_all_cons takesInside
  obtain ⟨closing, tail, _, _, takesClosing, takesTail, rfl, -⟩ := takes_all_cons takesBehind
  obtain rfl := takes_mark takesOpening
  obtain rfl := takes_mark takesClosing
  have notOpened : '[' ∉ lead := takesLead.lacks (by decide)
  have notClosed : ']' ∉ size := takesSize.lacks (by decide)
  have isSize : enclosed '[' ']' (lead ++ (['['] ++ (size ++ ([']'] ++ tail))) ++ rest) = size := by
    simpa using enclosed_eq notOpened notClosed (tail ++ rest)
  rw [isSize] at unquotedSize
  have unquotedLead : ∀ c ∈ lead, c ∉ quotes := takesLead.notMem (by decide)
  have unquotedTail : ∀ c ∈ tail, c ∉ quotes := takesTail.notMem (by decide)
  have unquotedMarks {c : Char} (isMark : c = '[' ∨ c = ']') : c ∉ quotes := by
    rcases isMark with rfl | rfl <;> decide
  intro c member
  simp only [List.mem_append, List.mem_singleton] at member
  rcases member with inLead | isOpening | inSize | isClosing | inTail
  · exact unquotedLead c inLead
  · exact unquotedMarks (.inl isOpening)
  · exact unquotedSize c inSize
  · exact unquotedMarks (.inr isClosing)
  · exact unquotedTail c inTail

/-- A declared size is dropped, so it must not have quotes. -/
theorem carries_arrayInitialisers
    (takes : Takes arrayInitialisers.pattern found.text (found.groups.map Group.numbered))
    (unquotedSize : ∀ c ∈ enclosed '[' ']' found.text, c ∉ quotes)
    (code : CodeText following found.text literals) :
    Carries
      ([Part.text "let ", .group 1, .text " = [", .group 2, .text "]"].flatMap (Part.expand found))
      literals := by
  let first : List Pattern :=
    [.wordEdge, literal "let", spaces1, .group 1 name, spaces, mark '[',
      zeroOrMore (noneOf [']', '\n']), mark ']', spaces, mark '=', spaces, mark '\x7b']
  have around : Takes
      (all (first ++ .group 2 (zeroOrMore (noneOf ['\x7b', '\x7d'])) :: [mark '\x7d']))
      found.text (found.groups.map Group.numbered) := takes
  obtain ⟨front, back, _, _, _, takesFirst, _, takesSecond, whole⟩ :=
    Match.around_group around (by decide)
  have unquotedFront : ∀ c ∈ front, c ∉ quotes := by
    rw [whole, List.append_assoc] at unquotedSize
    exact unquoted_front_of_size takesFirst _ unquotedSize
  exact carries_of_group_template arrayInitialisers whole unquotedFront
    (takesSecond.notMem (by decide)) takes (by decide) rfl (by decide) (by decide) code

/-- Around its parameters a function header opens neither a literal nor a comment. -/
theorem isPlain_around_parameters
    (takes : Takes functions.pattern found.text (found.groups.map Group.numbered)) :
    (∀ c ∈ found.group 1 ++ "async function ".toList ++ found.group 2 ++ ['('],
        isPlain c = true) ∧
      ∀ c ∈ ')' :: found.group 4, isPlain c = true := by
  have plainGroup {number : Nat}
      (none : functions.pattern.remembersNone openings number = true) :
      ∀ c ∈ found.group number, isPlain c = true :=
    fun c member => isPlain_iff_notMem.mpr (Match.notMem_group takes none c member)
  refine ⟨?_, List.forall_mem_cons.mpr ⟨rfl, plainGroup (by decide)⟩⟩
  simp only [List.mem_append]
  rintro c (((inBlanks | inKeywords) | inName) | opening)
  · exact plainGroup (by decide) c inBlanks
  · exact isPlain_of_all (by decide) c inKeywords
  · exact plainGroup (by decide) c inName
  · exact isPlain_of_all (by decide) c opening

/-- The parameters of a match stand in its parentheses. -/
theorem enclosed_eq_parameters
    (takes : Takes functions.pattern found.text (found.groups.map Group.numbered)) :
    ∃ front back,
      found.text = front ++ found.group 3 ++ back ∧ (∀ c ∈ front, c ∉ quotes) ∧
        (∀ c ∈ back, c ∉ quotes) ∧ enclosed '(' ')' found.text = found.group 3 := by
  let header : List Pattern :=
    [.lineStart, .group 1 blanks, optional (.seq (words ["void", "let"]) blanks1),
      optional (mark '*'), blanks, .group 2 name, blanks]
  let second : List Pattern := [mark ')', .group 4 (.seq spaces (mark '\x7b'))]
  have around :
      Takes (all ((header ++ [mark '(']) ++ .group 3 (zeroOrMore (noneOf ['(', ')'])) :: second))
        found.text (found.groups.map Group.numbered) := takes
  obtain ⟨front, back, _, _, _, takesFront, takesInner, takesBack, whole⟩ :=
    Match.around_group around (by decide)
  refine ⟨front, back, whole, takesFront.notMem (by decide), takesBack.notMem (by decide), ?_⟩
  obtain ⟨lead, opening, _, _, takesLead, takesOpening, rfl, -⟩ := takes_all_append takesFront
  obtain ⟨closing, tail, _, _, takesClosing, -, rfl, -⟩ := takes_all_cons takesBack
  obtain rfl := takes_mark takesOpening
  obtain rfl := takes_mark takesClosing
  have notOpened : '(' ∉ lead := takesLead.lacks (by decide)
  have notClosed : ')' ∉ found.group 3 := takesInner.lacks (by decide)
  rw [whole]
  simpa using enclosed_eq notOpened notClosed tail

/-- All of a parameter but its name and its default is dropped, so it must not have quotes. -/
theorem carries_functions
    {header : List Char}
    (takes : Takes functions.pattern found.text (found.groups.map Group.numbered))
    (made : functionHeader found = some header)
    (inDefault :
      ∀ parameter ∈ (enclosed '(' ')' found.text).splitOn ',',
        (∃ quote ∈ quotes, quote ∈ parameter) → QuotesInDefault parameter)
    (noComma : ∀ spelled ∈ literals, ',' ∉ spelled)
    (code : CodeText following found.text literals) :
    Carries header literals := by
  obtain ⟨plainFront, plainBack⟩ := isPlain_around_parameters takes
  obtain ⟨front, back, whole, unquotedFront, unquotedBack, areParameters⟩ :=
    enclosed_eq_parameters takes
  unfold functionHeader at made
  dsimp only at made
  split at made
  · contradiction
  cases made
  rw [whole] at code
  have inner := code.inner unquotedFront unquotedBack
  rw [areParameters] at inDefault
  have divided : List.intercalate [','] (splitOn ',' (found.group 3)) = found.group 3 := by
    rw [splitOn_eq, List.intercalate_splitOn]
  rw [← divided] at inner
  rw [← splitOn_eq] at inDefault
  have joined : CodeText (some ')')
      (joinArguments ((splitOn ',' (found.group 3)).filterMap parameterName?)) literals :=
    inner.joinArguments noComma inDefault (by rintro c ⟨⟩; decide)
  have carries := Carries.surround joined plainFront plainBack
  simpa using carries

/-- The rules that leave literals out on purpose. -/
def deletingRules : List Rule := [directives, prototypes, stripAssignments, stripDeclarations]

/-- Outside of comments a replacement carries the literals of its match over. -/
theorem carries_of_replaces
    {rule : Rule}
    {turns : Nat}
    {state : Lexical}
    {new behind : List Char}
    (member : rule ∈ rules)
    (keeping : rule ∉ deletingRules)
    (notComments : rule ≠ comments)
    (replaces : rule.Replaces turns state found new behind)
    (code : CodeText following found.text literals)
    (unquotedSize :
      rule = arrayInitialisers → ∀ c ∈ enclosed '[' ']' found.text, c ∉ quotes)
    (inDefault :
      rule = functions →
        ∀ parameter ∈ (enclosed '(' ')' found.text).splitOn ',',
          (∃ quote ∈ quotes, quote ∈ parameter) → QuotesInDefault parameter)
    (noComma : rule = functions → ∀ spelled ∈ literals, ',' ∉ spelled) :
    Carries new literals := by
  have takes := Pattern.takes_of_matchAt? replaces.matched
  obtain ⟨made, applied, changed, rfl⟩ := replaces.made
  refine .keepLines ?_
  -- The cases come in the order in which the rules are applied.
  simp only [rules, List.mem_cons, List.not_mem_nil, or_false] at member
  rcases member with rfl | rfl | rfl | rfl | rfl | rfl | rfl | rfl | rfl | rfl | rfl | rfl |
    rfl | rfl | rfl | rfl | rfl | rfl | rfl | rfl | rfl
  · exact absurd rfl notComments
  · cases applied
    exact carries_defineConstants takes code
  · exact absurd (by simp [deletingRules]) keeping
  · cases applied
    exact carries_colorOrders takes code
  · cases applied
    exact carries_of_plain_template takes (by decide) (by decide) code
  · cases applied
    exact carries_of_plain_template takes (by decide) (by decide) code
  · cases applied
    exact carries_of_plain_template takes (by decide) (by decide) code
  · cases applied
    exact carries_of_plain_template takes (by decide) (by decide) code
  · cases applied
    exact carries_of_plain_template takes (by decide) (by decide) code
  · exact absurd (by simp [deletingRules]) keeping
  · cases applied
    exact carries_declarators takes code
  · cases applied
    exact carries_arrayInitialisers takes (unquotedSize rfl) code
  · cases applied
    exact carries_arrayDeclarations takes code
  · exact absurd (by simp [deletingRules]) keeping
  · exact absurd (by simp [deletingRules]) keeping
  · cases applied
    exact carries_buttonAllocations takes changed code
  · cases applied
    exact carries_buttonDeclarations takes code
  · cases applied
    exact carries_awaitDelays takes code
  · cases applied
    exact carries_of_plain_template takes (by decide) (by decide) code
  · unfold Replacement.apply? at applied
    change (if state.depth = 0 then functionHeader found else none) = some made at applied
    split at applied
    · exact carries_functions takes applied (inDefault rfl) (noComma rfl) code
    · contradiction
  · cases applied
    exact carries_of_plain_template takes (by decide) (by decide) code

end Catalogue

end LedSketch.Sketch
