import LedSketch.Proofs.Sketch.BalancedArguments
import LedSketch.Proofs.Sketch.Words

namespace LedSketch.Sketch

/-!
# Declarations of strips

A strip is declared with its constructor or assigned from it.  The rules for strips match
either as a whole, up to the last parenthesis, however deep the arguments are nested.
-/

open Pattern Vocabulary Catalogue
open Script (StopsAt)
open Text (HasWord)

/-- The name of the class of strips. -/
def stripWord : List Char := "Adafruit_NeoPixel".toList

/-- The keyword of an allocation, with a blank behind it. -/
def newText : List Char := "new ".toList

/-- The keyword of a variable, with a blank behind it. -/
def letText : List Char := "let ".toList

/-- The call that makes a strip, up to its parenthesis. -/
def createText : List Char := " = createStrip(".toList

/-- An argument of a constructor, on one line and without the name of the class. -/
structure StripArgument extends Argument where
  oneLine : '\n' ∉ toArgument.padded
  noEnd : ';' ∉ text
  otherWords : ¬ HasWord stripWord text

/-- A strip that is made from two arguments at least. -/
structure StripDeclaration where
  name : List Char
  isName : IsName name
  first : StripArgument
  second : StripArgument
  others : List StripArgument

namespace StripDeclaration

/-- The arguments as they stand in parentheses, with a comma between two of them. -/
def argumentText (declaration : StripDeclaration) : List Char :=
  List.intercalate [',']
    ((declaration.first :: declaration.second :: declaration.others).map fun argument =>
      argument.padded)

/-- The declaration of a strip with its constructor. -/
def declared (declaration : StripDeclaration) : List Char :=
  stripWord ++ ' ' :: (declaration.name ++ '(' :: (declaration.argumentText ++ [')', ';']))

/-- The declaration of a strip, or of a pointer to one, that is assigned from a constructor. -/
def assigned
    (declaration : StripDeclaration)
    (pointer allocated : Bool) :
    List Char :=
  stripWord ++ ' ' :: ((if pointer then ['*'] else []) ++ (declaration.name ++
    ' ' :: '=' :: ' ' :: ((if allocated then newText else []) ++
      (stripWord ++ '(' :: (declaration.argumentText ++ [')', ';'])))))

/-- The third argument behind its comma, if there is one. -/
def third : List StripArgument → List Char
  | [] => []
  | argument :: _ => ',' :: ' ' :: argument.text

/-- The arguments that are kept. -/
def keptText (declaration : StripDeclaration) : List Char :=
  declaration.first.text ++ ',' :: ' ' :: (declaration.second.text ++ third declaration.others)

/-- The call that makes the strip. -/
def created (declaration : StripDeclaration) : List Char :=
  letText ++ (declaration.name ++ (createText ++ (declaration.keptText ++ [')', ';'])))

end StripDeclaration

section Backing

variable {turns left : Nat} {start : Progress} {accepts : Char → Bool} {c : Char}
  {passed behind : List Char} {result : Type} {onward : Progress → Option result}
  {found : result}

/-- A repetition of a class stays where another character stands. -/
theorem searchTurns_stay (stops : ∀ other ∈ start.cursor.rest.head?, accepts other = false) :
    searchTurns .greedy (search Text.isWordChar turns (.char accepts)) onward left start =
      onward start := by
  have fails : Fails turns (.char accepts) start := .of_mayStart rfl stops
  cases left with
  | zero => rfl
  | succ left =>
      unfold searchTurns
      dsimp only
      rw [fails.stuck, firstOf]

/-- A repetition of a class tries to go on first. -/
theorem searchTurns_step
    (text : start.cursor.rest = c :: behind)
    (accepted : accepts c = true) :
    searchTurns .greedy (search Text.isWordChar turns (.char accepts)) onward (left + 1) start =
      (searchTurns .greedy (search Text.isWordChar turns (.char accepts)) onward left
        (start.skip 1)).or (onward start) := by
  have further : start.cursor.offset < (pass start).cursor.offset :=
    Nat.lt_of_lt_of_eq (Nat.lt_succ_self _) (@Progress.offset_skip start [c] _ text).symm
  rw [searchTurns, firstOf_eq_or]
  simp only [search, text, if_pos accepted, if_pos further]
  rfl

/-- A repetition that is stuck at its longest stretch gives back one character. -/
theorem searchTurns_back
    (text : start.cursor.rest = passed ++ c :: behind)
    (accepted : ∀ other ∈ passed, accepts other = true)
    (last : accepts c = true)
    (stops : ∀ other ∈ behind.head?, accepts other = false)
    (stuck : onward (start.skip (passed.length + 1)) = none)
    (fits : onward (start.skip passed.length) = some found)
    (enough : passed.length < left) :
    searchTurns .greedy (search Text.isWordChar turns (.char accepts)) onward left start =
      some found := by
  induction passed generalizing start left with
  | nil =>
      obtain ⟨left, rfl⟩ : ∃ fewer, left = fewer + 1 := ⟨left - 1, by omega⟩
      have atLast := Progress.rest_skip_one text
      rw [searchTurns_step text last, searchTurns_stay (by rwa [atLast])]
      exact (congrArg (·.or (onward start)) stuck).trans fits
  | cons first passed inductionHypothesis =>
      obtain ⟨left, rfl⟩ : ∃ fewer, left = fewer + 1 := ⟨left - 1, by omega⟩
      obtain ⟨here, others⟩ := List.forall_mem_cons.mp accepted
      rw [List.length_cons, Nat.add_comm, ← Progress.skip_skip] at fits
      rw [List.length_cons, Nat.add_comm passed.length, Nat.add_assoc, ← Progress.skip_skip]
        at stuck
      have later := inductionHypothesis (Progress.rest_skip_one text) others stuck fits
        (Nat.lt_of_succ_lt_succ enough)
      rw [searchTurns_step text here, later, Option.some_or]

end Backing

section Matching

variable {turns : Nat} {start : Progress} {before : Option Char} {arguments rest : List Char}

/-- The parenthesis behind the arguments and the end of the statement. -/
def closing : Pattern := .seq (mark ')') (.seq spaces (mark ';'))

/-- The arguments in parentheses up to the end of the statement. -/
def argumentList : Pattern :=
  .seq spaces (.seq (mark '(') (.seq (.group 2 (zeroOrMore (noneOf [';']))) closing))

theorem stripAssignments_pattern :
    stripAssignments.pattern =
      .seq .wordEdge (.seq stripClass (.seq spaces (.seq (Pattern.optional (mark '*'))
        (.seq spaces (.seq (.group 1 Vocabulary.name) (.seq spaces (.seq (mark '=') (.seq spaces
          (.seq (Pattern.optional (.seq (literal "new") spaces1))
            (.seq stripClass argumentList)))))))))) :=
  rfl

theorem stripDeclarations_pattern :
    stripDeclarations.pattern =
      .seq .wordEdge (.seq stripClass (.seq spaces1
        (.seq (.group 1 Vocabulary.name) argumentList))) :=
  rfl

/-- Nothing is taken where no white space stands. -/
theorem prefers_noSpaces (noBlank : StopsAt Text.isBlank start.cursor.rest) :
    Prefers turns spaces start start := by
  have fails : Fails turns (.char Text.isBlank) start := .of_mayStart rfl noBlank
  exact (Repeats.stop fails).prefers (Nat.zero_le turns)

/-- The arguments reach up to the last parenthesis, whatever parentheses are in them. -/
theorem prefers_arguments
    (text : start.cursor.rest = arguments ++ [')', ';'])
    (noEnd : ';' ∉ arguments)
    (enough : arguments.length < turns) :
    Prefers turns (.seq (.group 2 (zeroOrMore (noneOf [';']))) closing) start
      ⟨start.cursor.skip (arguments.length + 2),
        ⟨2, start.cursor, start.cursor.skip arguments.length⟩ :: start.groups⟩ where
  finds onward found fits := by
    let given := remember 2 start (start.skip arguments.length)
    have atClosing : given.cursor.rest = [')', ';'] := Progress.rest_skip text
    have atEnd : (given.skip 1).cursor.rest = [';'] := Progress.rest_skip_one atClosing
    have ofClosing : Prefers turns closing given ((given.skip 1).skip 1) :=
      .seq (.char atClosing rfl)
        (.seq (prefers_noSpaces (by rw [atEnd]; rintro c ⟨⟩; rfl)) (.char atEnd rfl))
    have isLast : (given.skip 1).skip 1 =
        ⟨start.cursor.skip (arguments.length + 2),
          ⟨2, start.cursor, start.cursor.skip arguments.length⟩ :: start.groups⟩ := by
      rw [Progress.skip_skip, Cursor.skip_add]
      rfl
    have accepted : ∀ other ∈ arguments, (!List.contains [';'] other) = true := by
      intro other member
      simp only [List.contains_cons, List.contains_nil, Bool.or_false, Bool.not_eq_true',
        beq_eq_false_iff_ne, ne_eq]
      rintro rfl
      exact noEnd member
    have tooFar : Fails turns closing (remember 2 start (start.skip (arguments.length + 1))) := by
      refine .of_mayStart rfl fun c isHead => ?_
      have behind : (start.skip (arguments.length + 1)).cursor.rest = [';'] := by
        rw [← Progress.skip_skip]
        exact Progress.rest_skip_one (Progress.rest_skip text)
      rw [remember] at isHead
      dsimp only at isHead
      rw [behind] at isHead
      cases isHead
      rfl
    rw [← isLast] at fits
    have fitsOneEarlier := ofClosing.finds onward found fits
    have stuck := tooFar.stuck onward
    exact searchTurns_back text accepted rfl (by rintro c ⟨⟩; rfl) stuck fitsOneEarlier enough

theorem prefers_argumentList
    (text : start.cursor.rest = '(' :: (arguments ++ [')', ';']))
    (noEnd : ';' ∉ arguments)
    (enough : arguments.length < turns) :
    ∃ last, Prefers turns argumentList start last ∧ last.cursor.rest = [] ∧
      last.groups.map Group.numbered = (2, arguments) :: start.groups.map Group.numbered := by
  have atArguments : (start.skip 1).cursor.rest = arguments ++ [')', ';'] :=
    Progress.rest_skip_one text
  have isText : (start.skip 1).cursor.textTo ((start.skip 1).cursor.skip arguments.length) =
      arguments :=
    (Cursor.passes_skip atArguments).textTo_eq
  refine ⟨_, (prefers_noSpaces (by rw [text]; rintro c ⟨⟩; rfl)).seq
    (Prefers.seq (.char text rfl) (prefers_arguments atArguments noEnd enough)), ?_, ?_⟩
  · have whole : (start.skip 1).cursor.rest = (arguments ++ [')', ';']) ++ [] := by
      rw [atArguments, List.append_nil]
    have behind := Cursor.rest_skip whole
    rwa [List.length_append] at behind
  · rw [List.map_cons, Group.numbered, Group.text, isText]
    rfl

end Matching

namespace StripDeclaration

variable (declaration : StripDeclaration)

theorem exists_of_mem_arguments
    {c : Char}
    (member : c ∈ declaration.argumentText) :
    c = ',' ∨ ∃ argument : StripArgument, c ∈ argument.padded := by
  rw [argumentText] at member
  generalize declaration.first :: declaration.second :: declaration.others = arguments at member
  induction arguments with
  | nil => contradiction
  | cons argument arguments inductionHypothesis =>
      cases arguments with
      | nil =>
          rw [List.map_cons, List.map_nil, List.intercalate_singleton] at member
          exact .inr ⟨argument, member⟩
      | cons next arguments =>
          rw [List.map_cons, List.map_cons, List.intercalate_cons_cons] at member
          rcases List.mem_append.mp member with inFront | inRest
          · rcases List.mem_append.mp inFront with inFirst | isComma
            · exact .inr ⟨argument, inFirst⟩
            · exact .inl (List.mem_singleton.mp isComma)
          · exact inductionHypothesis inRest

theorem noLineEnd_arguments : '\n' ∉ declaration.argumentText := by
  intro member
  rcases declaration.exists_of_mem_arguments member with isComma | ⟨argument, inArgument⟩
  · contradiction
  · exact argument.oneLine inArgument

theorem noEnd_arguments : ';' ∉ declaration.argumentText := by
  intro member
  rcases declaration.exists_of_mem_arguments member with isComma | ⟨argument, inArgument⟩
  · contradiction
  · rcases List.mem_append.mp inArgument with inBefore | inRest
    · exact absurd (argument.blankBefore _ inBefore) (by decide)
    · rcases List.mem_append.mp inRest with inText | inAfter
      · exact argument.noEnd inText
      · exact absurd (argument.blankAfter _ inAfter) (by decide)

section Matching

variable {turns : Nat} {start : Progress} {rest : List Char}

/-- Nothing but the edge of a word is needed to begin at the start of a text. -/
theorem prefers_class
    (text : start.cursor.rest = stripWord ++ rest) :
    Prefers turns stripClass start (start.skip stripWord.length) :=
  .literal text

theorem prefers_blank
    (text : start.cursor.rest = ' ' :: rest)
    (noBlank : StopsAt Text.isBlank rest)
    (enough : 1 ≤ turns) :
    Prefers turns spaces start (start.skip 1) :=
  @Prefers.zeroOrMore_char turns start Text.isBlank [' '] rest text (by decide) noBlank enough

/-- The mark of a pointer is taken if there is one. -/
theorem prefers_pointer
    (pointer : Bool)
    (text : start.cursor.rest = (if pointer then ['*'] else []) ++ rest)
    (begins : BeginsWord rest) :
    Prefers turns (Pattern.optional (mark '*')) start
      (start.skip (if pointer then ['*'] else []).length) := by
  cases pointer with
  | true => exact .left (.char text rfl)
  | false =>
      refine .absent (.of_mayStart rfl fun c isHead => ?_)
      rw [text] at isHead
      obtain ⟨first, isFirst, isName⟩ := begins
      cases Option.some.inj (isFirst.symm.trans isHead)
      refine decide_eq_false ?_
      rintro rfl
      contradiction

/-- The keyword of an allocation is taken if there is one. -/
theorem prefers_allocation
    (allocated : Bool)
    (text : start.cursor.rest = (if allocated then newText else []) ++ (stripWord ++ rest))
    (enough : 1 ≤ turns) :
    Prefers turns (Pattern.optional (.seq (literal "new") spaces1)) start
      (start.skip (if allocated then newText else []).length) := by
  cases allocated with
  | true =>
      have atNew : start.cursor.rest = "new".toList ++ ([' '] ++ (stripWord ++ rest)) := by
        rw [text]
        rfl
      have ofBlank : Prefers turns spaces1 _ _ :=
        .oneOrMore_char (Progress.rest_skip atNew) (List.cons_ne_nil ' ' []) (by decide)
          (by rintro c ⟨⟩; rfl) enough
      rw [Progress.skip_skip] at ofBlank
      exact .left (.seq (.literal atNew) ofBlank)
  | false =>
      refine .absent (.left (.of_mayStart rfl fun c isHead => ?_))
      rw [text] at isHead
      cases isHead
      rfl

/-- A text that is taken as a whole is matched as a whole, with its groups. -/
theorem exists_match
    {pattern : Pattern}
    {text name arguments : List Char}
    {last : Progress}
    (prefers : Prefers turns pattern ⟨⟨none, text, 0⟩, []⟩ last)
    (notEmpty : text ≠ [])
    (behind : last.cursor.rest = [])
    (groups : last.groups.map Group.numbered = [(2, arguments), (1, name)]) :
    ∃ found,
      pattern.matchAt? turns ⟨none, text, 0⟩ = some found ∧ found.last.rest = [] ∧
        found.group 1 = name ∧ found.group 2 = arguments := by
  have shorter : last.cursor.rest.length < text.length := by
    rw [behind]
    exact List.length_pos_iff.mpr notEmpty
  refine ⟨_, matchAt?_eq_some (prefers.finds some last rfl) shorter, behind, ?_, ?_⟩
  · exact @Match.group_eq_of_groups _ 1 name [] [(2, arguments)] groups (by simp)
  · exact @Match.group_eq_of_groups _ 2 arguments [(1, name)] [] groups (by simp)

end Matching

theorem beginsWord_stripWord (rest : List Char) : BeginsWord (stripWord ++ rest) :=
  ⟨'A', rfl, rfl⟩

/-- A declaration is matched as a whole. -/
theorem matchAt?_declared :
    ∃ found,
      stripDeclarations.pattern.matchAt? declaration.declared.length
          ⟨none, declaration.declared, 0⟩ = some found ∧
        found.last.rest = [] ∧ found.group 1 = declaration.name ∧
          found.group 2 = declaration.argumentText := by
  have enough : declaration.name.length + declaration.argumentText.length + 2 ≤
      declaration.declared.length := by
    simp only [declared, List.length_append, List.length_cons, List.length_nil]
    omega
  generalize declaration.declared.length = turns at enough
  let start : Progress := ⟨⟨none, declaration.declared, 0⟩, []⟩
  let named := (start.skip stripWord.length).skip 1
  let called := remember 1 named (named.skip declaration.name.length)
  have atBlank : (start.skip stripWord.length).cursor.rest =
      [' '] ++ (declaration.name ++ '(' :: (declaration.argumentText ++ [')', ';'])) :=
    Progress.rest_skip rfl
  have atName : named.cursor.rest =
      declaration.name ++ '(' :: (declaration.argumentText ++ [')', ';']) :=
    Progress.rest_skip_one atBlank
  have atList : called.cursor.rest = '(' :: (declaration.argumentText ++ [')', ';']) :=
    Progress.rest_skip atName
  obtain ⟨last, ofList, behind, groups⟩ :=
    @prefers_argumentList turns called declaration.argumentText atList
      declaration.noEnd_arguments (by omega)
  have edge : Prefers turns .wordEdge start start :=
    .wordEdge (atWordEdge_of_beginsWord rfl (beginsWord_stripWord _))
  have ofBlank : Prefers turns spaces1 _ named :=
    .oneOrMore_char atBlank (List.cons_ne_nil ' ' []) (by decide)
      (declaration.isName.begins _).noBlank (by simp; omega)
  have ofName : Prefers turns (.group 1 Vocabulary.name) named called :=
    (declaration.isName.prefers atName (by rintro c ⟨⟩; rfl) (by omega)).group 1
  have isName : Group.text ⟨1, named.cursor, (named.skip declaration.name.length).cursor⟩ =
      declaration.name :=
    (Cursor.passes_skip atName).textTo_eq
  refine exists_match ?_ (List.cons_ne_nil _ _) behind ?_
  · rw [stripDeclarations_pattern]
    exact edge.seq ((prefers_class rfl).seq (ofBlank.seq (ofName.seq ofList)))
  · rw [groups]
    exact congrArg (fun text => [(2, declaration.argumentText), (1, text)]) isName

/-- An assignment is matched as a whole. -/
theorem matchAt?_assigned
    (pointer allocated : Bool) :
    ∃ found,
      stripAssignments.pattern.matchAt? (declaration.assigned pointer allocated).length
          ⟨none, declaration.assigned pointer allocated, 0⟩ = some found ∧
        found.last.rest = [] ∧ found.group 1 = declaration.name ∧
          found.group 2 = declaration.argumentText := by
  have enough : declaration.name.length + declaration.argumentText.length + 2 ≤
      (declaration.assigned pointer allocated).length := by
    simp only [assigned, List.length_append, List.length_cons, List.length_nil]
    omega
  have isText : declaration.assigned pointer allocated =
      stripWord ++ ' ' :: ((if pointer then ['*'] else []) ++ (declaration.name ++
        ' ' :: '=' :: ' ' :: ((if allocated then newText else []) ++
          (stripWord ++ '(' :: (declaration.argumentText ++ [')', ';']))))) :=
    rfl
  generalize (declaration.assigned pointer allocated).length = turns at enough
  generalize declaration.assigned pointer allocated = whole at isText
  -- The places behind the parts, one after the other.
  let start : Progress := ⟨⟨none, whole, 0⟩, []⟩
  let marked := (start.skip stripWord.length).skip 1
  let named := marked.skip (if pointer then ['*'] else []).length
  let called := remember 1 named (named.skip declaration.name.length)
  let equals := called.skip 1
  let allotted := (equals.skip 1).skip 1
  let made := allotted.skip (if allocated then newText else []).length
  let listed := made.skip stripWord.length
  have atBlank := @Progress.rest_skip start _ _ isText
  have atMark : marked.cursor.rest = _ := Progress.rest_skip_one atBlank
  have atName : named.cursor.rest = _ := Progress.rest_skip atMark
  have atGap : called.cursor.rest = _ := Progress.rest_skip atName
  have atEquals : equals.cursor.rest = _ := Progress.rest_skip_one atGap
  have atSecondGap : (equals.skip 1).cursor.rest = _ := Progress.rest_skip_one atEquals
  have atAllocation : allotted.cursor.rest = _ := Progress.rest_skip_one atSecondGap
  have atClass : made.cursor.rest = _ := Progress.rest_skip atAllocation
  have atList : listed.cursor.rest = '(' :: (declaration.argumentText ++ [')', ';']) :=
    Progress.rest_skip atClass
  obtain ⟨last, ofList, behind, groups⟩ :=
    @prefers_argumentList turns listed declaration.argumentText atList
      declaration.noEnd_arguments (by omega)
  have begins := declaration.isName.begins
  have beginsStart : BeginsWord start.cursor.rest := by
    change BeginsWord whole
    rw [isText]
    exact beginsWord_stripWord _
  have edge : Prefers turns .wordEdge start start :=
    .wordEdge (atWordEdge_of_beginsWord rfl beginsStart)
  have ofBlank : Prefers turns spaces (start.skip stripWord.length) marked := by
    refine prefers_blank atBlank ?_ (by omega)
    cases pointer with
    | true =>
        rintro c ⟨⟩
        rfl
    | false => exact (begins _).noBlank
  have ofMark : Prefers turns (Pattern.optional (mark '*')) marked named :=
    prefers_pointer pointer atMark (begins _)
  have ofNothing : Prefers turns spaces named named :=
    prefers_noSpaces (atName ▸ (begins _).noBlank)
  have ofName : Prefers turns (.group 1 Vocabulary.name) named called :=
    (declaration.isName.prefers atName (by rintro c ⟨⟩; rfl) (by omega)).group 1
  have ofGap : Prefers turns spaces called equals :=
    prefers_blank atGap (by rintro c ⟨⟩; rfl) (by omega)
  have ofEquals : Prefers turns (mark '=') equals (equals.skip 1) := .char atEquals rfl
  have ofSecondGap : Prefers turns spaces (equals.skip 1) allotted := by
    refine prefers_blank atSecondGap ?_ (by omega)
    cases allocated <;>
      · rintro c ⟨⟩
        rfl
  have ofAllocation :
      Prefers turns (Pattern.optional (.seq (literal "new") spaces1)) allotted made :=
    prefers_allocation allocated atAllocation (by omega)
  have isName : Group.text ⟨1, named.cursor, (named.skip declaration.name.length).cursor⟩ =
      declaration.name :=
    (Cursor.passes_skip atName).textTo_eq
  refine exists_match ?_ (isText ▸ List.cons_ne_nil _ _) behind ?_
  · rw [stripAssignments_pattern]
    exact edge.seq ((prefers_class isText).seq (ofBlank.seq (ofMark.seq (ofNothing.seq
      (ofName.seq (ofGap.seq (ofEquals.seq (ofSecondGap.seq (ofAllocation.seq
        ((prefers_class atClass).seq ofList))))))))))
  · rw [groups]
    exact congrArg (fun text => [(2, declaration.argumentText), (1, text)]) isName

end StripDeclaration

end LedSketch.Sketch
