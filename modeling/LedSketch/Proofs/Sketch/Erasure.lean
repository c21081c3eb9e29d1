import LedSketch.Proofs.Sketch.Declarations

namespace LedSketch.Sketch

/-!
# Declared names

The rule that erases types finds a whole declaration, and leaves its name behind a keyword.
-/

open Pattern Vocabulary Catalogue
open Script (StopsAt)

/-- The words in front of a type, each with white space behind it. -/
inductive AreQualifiers : List Char → Prop where
  | none : AreQualifiers []
  | more
      {word : String}
      {gap others : List Char}
      (member : word ∈ ["const", "static", "volatile"])
      (isGap : IsGap gap)
      (areQualifiers : AreQualifiers others) :
      AreQualifiers (word.toList ++ (gap ++ others))

/-- The word for the sign of a type, with white space behind it, or nothing. -/
inductive IsSign : List Char → Prop where
  | none : IsSign []
  | word
      {word : String}
      {gap : List Char}
      (member : word ∈ ["unsigned", "signed"])
      (isGap : IsGap gap) :
      IsSign (word.toList ++ gap)

/-- What links a type to its name: white space, or the mark of a pointer or a reference. -/
inductive IsLink : List Char → Prop where
  | gap
      {gap : List Char}
      (isGap : IsGap gap) :
      IsLink gap
  | mark
      {front back : List Char}
      {mark : Char}
      (isMark : mark ∈ ['*', '&'])
      (blankFront : ∀ c ∈ front, Text.isBlank c = true)
      (blankBack : ∀ c ∈ back, Text.isBlank c = true) :
      IsLink (front ++ mark :: back)

/-- A name of ASCII letters, digits and underscores that does not begin with a digit. -/
structure IsName (text : List Char) : Prop where
  starts : ∃ first ∈ text.head?, Text.isNameStart first = true
  isName : ∀ c ∈ text, Text.isNameChar c = true

/-- A name has a letter. -/
theorem IsName.notEmpty
    {text : List Char}
    (isName : IsName text) :
    text ≠ [] := by
  obtain ⟨first, isHead, -⟩ := isName.starts
  exact List.ne_nil_of_mem (List.mem_of_head? isHead)

/-- A name is on one line. -/
theorem IsName.oneLine
    {name : List Char}
    (isName : IsName name) :
    '\n' ∉ name := fun member => by
  have isNameChar := isName.isName _ member
  contradiction

/-- A declaration, part by part; its name is no word that a type may end with. -/
structure Declaration where
  qualifiers : List Char
  sign : List Char
  type : List Char
  link : List Char
  name : List Char
  areQualifiers : AreQualifiers qualifiers
  isSign : IsSign sign
  isType : IsType type
  isLink : IsLink link
  isName : IsName name
  isNew : name ∉ castWords.map String.toList

/-- The text of a declaration. -/
def Declaration.text (declaration : Declaration) : List Char :=
  declaration.qualifiers ++
    (declaration.sign ++ (declaration.type ++ (declaration.link ++ declaration.name)))

/-- What links a type to its name. -/
def link : Pattern := .either (all [spaces, oneOf ['*', '&'], spaces]) spaces1

/-- The parts of the pattern for declarations. -/
theorem declarators_pattern :
    declarators.pattern =
      .seq .wordEdge
        (.seq (zeroOrMore (leadingWord ["const", "static", "volatile"]))
          (.seq (optional (leadingWord ["unsigned", "signed"]))
            (.seq (any typePatterns) (.seq link (.group 1 Vocabulary.name))))) :=
  rfl

section Parts

variable {turns : Nat} {start : Progress} {text behind : List Char}

/-- A name begins a word. -/
theorem IsName.begins
    (isName : IsName text)
    (behind : List Char) :
    BeginsWord (text ++ behind) := by
  obtain ⟨first, isHead, starts⟩ := isName.starts
  obtain ⟨others, rfl⟩ := List.head?_eq_some_iff.mp isHead
  exact ⟨first, rfl, Text.isNameChar_of_isNameStart starts⟩

/-- A type begins a word. -/
theorem IsType.begins
    (isType : IsType text)
    (behind : List Char) :
    BeginsWord (text ++ behind) := by
  have isNameHead : ∀ pair ∈ typePairs, pair.1.toList ≠ [] := by decide
  have isNameWord : ∀ word ∈ typeWords, word.toList ≠ [] := by decide
  cases isType with
  | @sized sign width isSign isWidth =>
      exact .of_word (by simp) (isName_sized sign isSign width isWidth) behind
  | @word word member =>
      exact .of_word (isNameWord word member) (isName_words word (List.mem_append_left _ member)) _
  | @pair pair gap member isGap =>
      rw [List.append_assoc]
      exact .of_word (isNameHead pair member) (isName_pairs pair member).1 _

/-- A sign begins a word, or what follows does. -/
theorem IsSign.begins
    (isSign : IsSign text)
    (begins : BeginsWord behind) :
    BeginsWord (text ++ behind) := by
  cases isSign with
  | none => exact begins
  | @word word gap member isGap =>
      have known : ∀ word ∈ ["unsigned", "signed"], word.toList ≠ [] := by decide
      rw [List.append_assoc]
      exact .of_word (known word member) (areApart_signs.isName word member) _

/-- Qualifiers begin a word, or what follows does. -/
theorem AreQualifiers.begins
    (areQualifiers : AreQualifiers text)
    (begins : BeginsWord behind) :
    BeginsWord (text ++ behind) := by
  cases areQualifiers with
  | none => exact begins
  | @more word gap others member isGap areQualifiers =>
      have known : ∀ word ∈ ["const", "static", "volatile"], word.toList ≠ [] := by decide
      rw [List.append_assoc]
      exact .of_word (known word member) (areApart_qualifiers.isName word member) _

/-- All qualifiers are taken, up to a word that is none. -/
theorem AreQualifiers.repeats
    (areQualifiers : AreQualifiers text)
    (isText : start.cursor.rest = text ++ behind)
    (begins : BeginsWord behind)
    (fails :
      ∀ place : Progress, place.cursor.rest = behind →
        Fails turns (leadingWord ["const", "static", "volatile"]) place)
    (enough : text.length ≤ turns) :
    ∃ count ≤ text.length,
      Repeats turns (leadingWord ["const", "static", "volatile"]) count start
        (start.skip text.length) := by
  induction areQualifiers generalizing start with
  | none => exact ⟨0, Nat.le_refl _, .stop (fails _ isText)⟩
  | @more word gap others member isGap areQualifiers inductionHypothesis =>
      have begins := areQualifiers.begins begins
      have whole : start.cursor.rest = word.toList ++ (gap ++ (others ++ behind)) := by
        simpa using isText
      have split : start.cursor.rest = (word.toList ++ gap) ++ (others ++ behind) := by
        simpa using isText
      simp only [List.length_append] at enough
      have once :=
        prefers_leadingWord areApart_qualifiers whole member isGap begins (by omega : _ ≤ turns)
      have notEmpty := List.length_pos_of_ne_nil isGap.notEmpty
      have offset := Progress.offset_skip split
      rw [List.length_append] at once offset
      have onward := Progress.rest_skip split
      rw [List.length_append] at onward
      obtain ⟨count, within, more⟩ := inductionHypothesis onward (by omega)
      rw [Progress.skip_skip] at more
      refine ⟨count + 1, ?_, ?_⟩
      · simp only [List.length_append]
        omega
      · simp only [List.length_append, ← Nat.add_assoc]
        exact .turn once (by omega) more

/-- No qualifier and no sign leads where another word stands. -/
theorem IsType.fails
    {texts : List String}
    (isType : IsType text)
    (areApart : AreApart texts)
    (absent : ∀ word ∈ typeHeads, word ∉ texts)
    (stops : StopsAt Text.isNameChar behind)
    (isText : start.cursor.rest = text ++ behind) :
    Fails turns (leadingWord texts) start := by
  obtain ⟨word, isHead, rest, stopsRest, same⟩ := isType.head stops
  rw [same] at isText
  exact fails_leadingWord areApart (isName_typeHeads word isHead).2 stopsRest isText
    (absent word isHead)

/-- A sign is no qualifier. -/
theorem IsSign.fails
    {type : List Char}
    (isSign : IsSign text)
    (isType : IsType type)
    (stops : StopsAt Text.isNameChar behind)
    (isText : start.cursor.rest = text ++ (type ++ behind)) :
    Fails turns (leadingWord ["const", "static", "volatile"]) start := by
  cases isSign with
  | none => exact isType.fails areApart_qualifiers (by decide) stops isText
  | @word word gap member isGap =>
      have other : ∀ word ∈ ["unsigned", "signed"], word ∉ ["const", "static", "volatile"] := by
        decide
      rw [List.append_assoc] at isText
      exact fails_leadingWord areApart_qualifiers (areApart_signs.isName word member)
        (isGap.stops _) isText (other word member)

/-- A sign is taken where there is one. -/
theorem IsSign.prefers
    {type : List Char}
    (isSign : IsSign text)
    (isType : IsType type)
    (stops : StopsAt Text.isNameChar behind)
    (isText : start.cursor.rest = text ++ (type ++ behind))
    (enough : text.length ≤ turns) :
    Prefers turns (optional (leadingWord ["unsigned", "signed"])) start
      (start.skip text.length) := by
  cases isSign with
  | none => exact .absent (isType.fails areApart_signs (by decide) stops isText)
  | @word word gap member isGap =>
      rw [List.append_assoc] at isText
      rw [List.length_append] at enough
      exact .left
        (prefers_leadingWord areApart_signs isText member isGap (isType.begins _) (by omega))

/-- What links a type and a name ends the type. -/
theorem IsLink.stops
    (isLink : IsLink text)
    (behind : List Char) :
    StopsAt Text.isNameChar (text ++ behind) := by
  cases isLink with
  | gap isGap => exact isGap.stops behind
  | @mark front back mark isMark blankFront blankBack =>
      rcases front with _ | ⟨c, front⟩
      · have known : ∀ mark ∈ ['*', '&'], Text.isNameChar mark = false := by decide
        rintro c ⟨⟩
        exact known mark isMark
      · rw [List.append_assoc]
        exact IsGap.stops ⟨List.cons_ne_nil c front, blankFront⟩ _

theorem not_isBlank_of_isNameChar
    {c : Char}
    (isName : Text.isNameChar c = true) :
    Text.isBlank c = false := by
  by_contra isBlank
  rw [Script.not_isNameChar_of_isBlank (Bool.not_eq_false _ ▸ isBlank)] at isName
  contradiction

/-- The marks of pointers belong to no name. -/
theorem isMark_cases :
    ∀ mark ∈ ['*', '&'], Text.isBlank mark = false ∧ Text.isNameChar mark = false := by
  decide

/-- All of a link is taken in front of a word. -/
theorem IsLink.prefers
    (isLink : IsLink text)
    (isText : start.cursor.rest = text ++ behind)
    (begins : BeginsWord behind)
    (enough : text.length ≤ turns) :
    Prefers turns link start (start.skip text.length) := by
  cases isLink with
  | gap isGap =>
      refine .right (.of_takes fun passed taken rest takes whole => ?_)
        (isGap.prefers isText begins enough)
      obtain ⟨front, _, _, _, takesFront, takesRest, rfl, -⟩ := takes_all_cons takes
      obtain ⟨_, back, _, _, ⟨-, mark, isMark, rfl⟩, -, rfl, -⟩ := takes_all_cons takesRest
      have noBlank := isMark_cases mark (List.contains_iff_mem.mp isMark)
      have blankFront : ∀ c ∈ front, Text.isBlank c = true := fun c member => by
        simpa [spaces, zeroOrMore, mayTake] using takesFront.mayTake member
      rw [isText, List.append_assoc, List.append_assoc] at whole
      obtain ⟨-, same⟩ := stretch_unique isGap.blank begins.noBlank blankFront
        (by rintro c ⟨⟩; exact noBlank.1) whole
      obtain ⟨c, isHead, isName⟩ := begins
      rw [same] at isHead
      cases isHead
      rw [noBlank.2] at isName
      contradiction
  | @mark front back mark isMark blankFront blankBack =>
      rw [List.append_assoc, List.cons_append] at isText
      simp only [List.length_append, List.length_cons] at enough ⊢
      have noBlank := isMark_cases mark isMark
      have atMark := Progress.rest_skip isText
      have atBack := Progress.rest_skip_one atMark
      have ofFront : Prefers turns spaces start (start.skip front.length) :=
        .zeroOrMore_char isText blankFront (by rintro c ⟨⟩; exact noBlank.1) (by omega)
      have ofMark : Prefers turns (oneOf ['*', '&']) _ _ :=
        .char atMark (List.contains_iff_mem.mpr isMark)
      have ofBack : Prefers turns (all [spaces]) _ _ :=
        Prefers.zeroOrMore_char atBack blankBack begins.noBlank (by omega : back.length ≤ turns)
      have whole := ofFront.all_cons (ofMark.all_cons ofBack)
      rw [Progress.skip_skip, Progress.skip_skip, Nat.add_comm 1] at whole
      exact .left whole

/-- No link begins where a word goes on. -/
theorem stuckInWords_link
    {result : Type}
    (second : Pattern)
    (onward : Progress → Option result) :
    StuckInWords (search Text.isWordChar turns (.seq link second) onward) := by
  rintro after ⟨c, isHead, isName⟩
  have noMark : ['*', '&'].contains c = false := by
    by_contra isMark
    rw [Bool.not_eq_false] at isMark
    rw [(isMark_cases c (List.contains_iff_mem.mp isMark)).2] at isName
    contradiction
  have fails : Fails turns link after := by
    refine .of_mayStart rfl fun other isOther => ?_
    cases Option.some.inj (isHead.symm.trans isOther)
    have noBlank := not_isBlank_of_isNameChar isName
    simp only [link, all, spaces, spaces1, zeroOrMore, oneOrMore, oneOf, mayStart, mayBeEmpty,
      noBlank, noMark, Bool.and_false, Bool.or_false]
  exact fails.left.stuck onward

/-- Behind a link stands the name, which is no second word of a type. -/
theorem noSecond_of_isLink
    {name : List Char}
    (isLink : IsLink text)
    (isName : IsName name)
    (isNew : name ∉ castWords.map String.toList)
    (stops : StopsAt Text.isNameChar behind) :
    NoSecond (text ++ (name ++ behind)) := by
  intro pair isPair gap rest isGap stopsRest same
  obtain ⟨-, notEmpty, isNameSecond⟩ := isName_pairs pair isPair
  have begins := BeginsWord.of_word notEmpty isNameSecond rest
  cases isLink with
  | gap isLink =>
      obtain ⟨-, behindGap⟩ := stretch_unique isLink.blank (isName.begins behind).noBlank
        isGap.blank begins.noBlank same
      obtain ⟨rfl, -⟩ := stretch_unique isName.isName stops isNameSecond stopsRest behindGap
      have known : ∀ pair ∈ typePairs, pair.2 ∈ castWords := by decide
      exact isNew (List.mem_map_of_mem (known pair isPair))
  | @mark front back mark isMark blankFront blankBack =>
      have noBlank := isMark_cases mark isMark
      rw [List.append_assoc] at same
      obtain ⟨-, behindGap⟩ := stretch_unique blankFront
        (by rintro c ⟨⟩; exact noBlank.1) isGap.blank begins.noBlank same
      obtain ⟨c, isHead, isNameHead⟩ := begins
      rw [← behindGap] at isHead
      cases isHead
      rw [noBlank.2] at isNameHead
      contradiction

/-- A word begins at an edge if no word goes on in front of it. -/
theorem atWordEdge_of_beginsWord
    {cursor : Cursor}
    (outside : isWordAt Text.isWordChar cursor.before = false)
    (begins : BeginsWord cursor.rest) :
    atWordEdge Text.isWordChar cursor = true := by
  obtain ⟨c, isHead, isName⟩ := begins
  rw [atWordEdge, outside, Option.mem_def.mp isHead, isWordAt, Text.isWordChar_of_isNameChar isName]
  rfl

/-- A name is taken whole. -/
theorem IsName.prefers
    (isName : IsName text)
    (isText : start.cursor.rest = text ++ behind)
    (stops : StopsAt Text.isWordChar behind)
    (enough : text.length ≤ turns) :
    Prefers turns Vocabulary.name start (start.skip text.length) := by
  obtain ⟨first, isHead, starts⟩ := isName.starts
  obtain ⟨others, rfl⟩ := List.head?_eq_some_iff.mp isHead
  have areNames := (List.forall_mem_cons.mp isName.isName).2
  have more : Prefers turns (zeroOrMore wordChar) _ _ :=
    .zeroOrMore_char (Progress.rest_skip_one isText)
      (fun c member => Text.isWordChar_of_isNameChar (areNames c member)) stops
      (Nat.le_of_succ_le enough)
  rw [Progress.skip_skip, Nat.add_comm] at more
  exact .seq (.char isText starts) more

end Parts

namespace Declaration

variable (declaration : Declaration) {turns : Nat} {before : Option Char} {offset : Nat}
  {rest : List Char}

/-- The rule matches a whole declaration and remembers its name. -/
theorem matchAt?_text
    (outside : isWordAt Text.isWordChar before = false)
    (stops : StopsAt Text.isWordChar rest)
    (enough : declaration.text.length ≤ turns) :
    ∃ found,
      declarators.pattern.matchAt? turns ⟨before, declaration.text ++ rest, offset⟩ =
          some found ∧
        found.last.rest = rest ∧ found.group 1 = declaration.name := by
  obtain ⟨qualifiers, sign, type, linked, name, areQualifiers, isSign, isType, isLink, isName,
    isNew⟩ := declaration
  simp only [text, List.append_assoc, List.length_append] at enough ⊢
  have stopsName : StopsAt Text.isNameChar rest := by
    intro c isHead
    by_contra isNameChar
    have isWord := Text.isWordChar_of_isNameChar (Bool.not_eq_false _ ▸ isNameChar)
    rw [stops c isHead] at isWord
    contradiction
  have linkStops := isLink.stops (name ++ rest)
  have begins := areQualifiers.begins (isSign.begins (isType.begins (linked ++ (name ++ rest))))
  -- The places in front of the parts, one after the other.
  generalize isStart :
    (⟨⟨before, qualifiers ++ (sign ++ (type ++ (linked ++ (name ++ rest)))), offset⟩, []⟩ :
      Progress) = start
  have atQualifiers :
      start.cursor.rest = qualifiers ++ (sign ++ (type ++ (linked ++ (name ++ rest)))) := by
    rw [← isStart]
  have atSign := Progress.rest_skip atQualifiers
  have atType := Progress.rest_skip atSign
  have atLink := Progress.rest_skip atType
  have atName := Progress.rest_skip atLink
  obtain ⟨count, within, repeats⟩ :=
    areQualifiers.repeats atQualifiers (isSign.begins (isType.begins _))
      (fun place isText => isSign.fails isType linkStops isText) (by omega : _ ≤ turns)
  have ofQualifiers := repeats.prefers (by omega)
  have ofSign := isSign.prefers isType linkStops atSign (by omega : _ ≤ turns)
  have ofLink := isLink.prefers atLink (isName.begins rest) (by omega : _ ≤ turns)
  have ofName := (isName.prefers atName stops (by omega : _ ≤ turns)).group 1
  have ofType :=
    search_types isType (stuckInWords_link _ _) linkStops
      (noSecond_of_isLink isLink isName isNew stopsName) atType (by omega : _ ≤ turns)
      ((ofLink.seq ofName).finds some _ rfl)
  have edge : Prefers turns .wordEdge start start := by
    refine .wordEdge (atWordEdge_of_beginsWord ?_ (atQualifiers ▸ begins))
    rwa [← isStart]
  have whole := edge.finds _ _ (ofQualifiers.finds _ _ (ofSign.finds _ _ ofType))
  have notEmpty : 0 < name.length := by
    obtain ⟨first, isHead, -⟩ := isName.starts
    exact List.length_pos_of_mem (List.mem_of_head? isHead)
  have behind := Progress.rest_skip atName
  have isGroup := (Cursor.passes_skip atName).textTo_eq
  have shorter : rest.length < start.cursor.rest.length := by
    rw [atQualifiers]
    simp only [List.length_append]
    omega
  rw [← behind] at shorter
  subst isStart
  refine ⟨_, matchAt?_eq_some whole shorter, behind, ?_⟩
  rw [remember, Match.group_cons, if_pos rfl]
  exact isGroup

end Declaration

end LedSketch.Sketch
