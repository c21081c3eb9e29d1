import LedSketch.Proofs.Sketch.Erasure
import LedSketch.Proofs.Sketch.Wording

namespace LedSketch.Sketch

/-!
# Headers of functions

A header is written with single blanks.  The rule that erases types leaves a keyword and the
name of every parameter, and of the function if it has a result.
-/

open Pattern Vocabulary Catalogue
open Script (StopsAt)

/-- How a parameter is declared around its name. -/
inductive Shape where
  | plain
  | pointer
  | reference
  /-- An array of any size. -/
  | items
  | array
      (size : List Char)
      (notEmpty : size ≠ [])
      (digits : ∀ c ∈ size, c.isDigit = true)

namespace Shape

/-- What stands between the type and the name. -/
def link : Shape → List Char
  | .pointer => [' ', '*']
  | .reference => [' ', '&']
  | .plain | .items | .array _ _ _ => [' ']

/-- What stands behind the name. -/
def suffix : Shape → List Char
  | .plain | .pointer | .reference => []
  | .items => ['[', ']']
  | .array size _ _ => '[' :: (size ++ [']'])

end Shape

/-- A name that is no word for a type and does not begin as color orders do. -/
structure IsHeaderName (name : List Char) : Prop where
  isName : IsName name
  isNew : name ∉ castWords.map String.toList
  notOrder : ¬ "NEO_".toList <+: name

/-- A name is on one line. -/
theorem IsHeaderName.oneLine
    {name : List Char}
    (isName : IsHeaderName name) :
    '\n' ∉ name :=
  isName.isName.oneLine

/-- A parameter of a function. -/
structure Parameter where
  isConst : Bool
  isUnsigned : Bool
  type : List Char
  shape : Shape
  name : List Char
  isType : Takes (any numericTypes) type []
  oneLine : '\n' ∉ type
  isName : IsHeaderName name

/-- A blank is a gap. -/
theorem isGap_blank : IsGap [' '] where
  notEmpty := by decide
  blank := by decide

namespace Parameter

/-- The word in front of the type that fixes its values, if there is one. -/
def constText (parameter : Parameter) : List Char :=
  if parameter.isConst then "const ".toList else []

/-- The word in front of the type that fixes its sign, if there is one. -/
def signText (parameter : Parameter) : List Char :=
  if parameter.isUnsigned then "unsigned ".toList else []

/-- The text of a parameter. -/
def text (parameter : Parameter) : List Char :=
  parameter.constText ++ (parameter.signText ++ (parameter.type ++ (parameter.shape.link ++
    (parameter.name ++ parameter.shape.suffix))))

/-- The text of a parameter when its type is erased. -/
def erased (parameter : Parameter) : List Char :=
  "let ".toList ++ (parameter.name ++ parameter.shape.suffix)

/-- The parameter without what stands behind its name. -/
def declaration (parameter : Parameter) : Declaration where
  qualifiers := parameter.constText
  sign := parameter.signText
  type := parameter.type
  link := parameter.shape.link
  name := parameter.name
  areQualifiers := by
    unfold constText
    cases parameter.isConst with
    | false => exact .none
    | true => exact .more (by decide : "const" ∈ _) isGap_blank .none
  isSign := by
    unfold signText
    cases parameter.isUnsigned with
    | false => exact .none
    | true => exact .word (by decide : "unsigned" ∈ _) isGap_blank
  isType := isType_of_takes parameter.isType
  isLink := by
    cases parameter.shape with
    | pointer => exact .mark (by decide : '*' ∈ _) isGap_blank.blank (by simp : ∀ c ∈ [], _)
    | reference => exact .mark (by decide : '&' ∈ _) isGap_blank.blank (by simp : ∀ c ∈ [], _)
    | plain | items | array => exact .gap isGap_blank
  isName := parameter.isName.isName
  isNew := parameter.isName.isNew

/-- A parameter is a declaration with what is behind its name. -/
theorem text_eq (parameter : Parameter) :
    parameter.text = parameter.declaration.text ++ parameter.shape.suffix := by
  simp [text, declaration, Declaration.text]

end Parameter

/-- Words in front of a parameter list, and a body without statements behind it. -/
def headerText
    (front : List Char)
    (parameters : List (List Char)) :
    List Char :=
  front ++ '(' :: (joinArguments parameters ++ [')', ' ', '\x7b', '\n', '\x7d'])

theorem joinArguments_singleton (item : List Char) : joinArguments [item] = item :=
  List.intercalate_singleton

/-- Items are joined with a comma and a blank. -/
theorem joinArguments_cons_cons
    (item next : List Char)
    (items : List (List Char)) :
    joinArguments (item :: next :: items) =
      item ++ ',' :: ' ' :: joinArguments (next :: items) := by
  rw [joinArguments, List.intercalate_cons_cons, List.append_assoc]
  rfl

/-- The characters of joined items are of an item, or a comma or a blank. -/
theorem mem_joinArguments
    {items : List (List Char)}
    {c : Char}
    (member : c ∈ joinArguments items) :
    c ∈ [',', ' '] ∨ ∃ item ∈ items, c ∈ item := by
  induction items with
  | nil => contradiction
  | cons item items inductionHypothesis =>
      cases items with
      | nil =>
          rw [joinArguments_singleton] at member
          exact .inr ⟨item, List.mem_cons_self, member⟩
      | cons next items =>
          rw [joinArguments_cons_cons, List.mem_append, List.mem_cons, List.mem_cons] at member
          rcases member with here | rfl | rfl | later
          · exact .inr ⟨item, List.mem_cons_self, here⟩
          · exact .inl (by decide)
          · exact .inl (by decide)
          · refine (inductionHypothesis later).imp_right ?_
            rintro ⟨other, isOther, inOther⟩
            exact ⟨other, List.mem_cons_of_mem item isOther, inOther⟩

/-- A function that is defined outside of all others. -/
structure FunctionHeader where
  result : List Char
  name : List Char
  parameters : List Parameter
  isResult :
    result = "void".toList ∨ Takes (any numericTypes) result [] ∧ '\n' ∉ result
  isName : IsHeaderName name
  notReserved :
    name ∉
      (reservedWords ++ ["setup", "loop", "delay", "delayMicroseconds"]).map String.toList

namespace FunctionHeader

/-- The definition of a function with an empty body. -/
def text (header : FunctionHeader) : List Char :=
  headerText (header.result ++ ' ' :: header.name) (header.parameters.map Parameter.text)

/-- The keyword that is left of the result. -/
def keyword (header : FunctionHeader) : List Char :=
  if header.result = "void".toList then "void".toList else "let".toList

/-- The definition when the types are erased. -/
def erased (header : FunctionHeader) : List Char :=
  headerText (header.keyword ++ ' ' :: header.name) (header.parameters.map Parameter.erased)

end FunctionHeader

section Worded

variable {text more : List Char} {c : Char}

/-- A text that can be put in front of one that does not go on with a word. -/
structure IsItem (text : List Char) : Prop where
  worded :
    ∀ rest, (∀ c ∈ rest.head?, isBetween c = true) → Worded IsOrdinary rest →
      Worded IsOrdinary (text ++ rest)

namespace IsItem

/-- Nothing is an item. -/
theorem nothing : IsItem [] := ⟨fun _ _ worded => worded⟩

/-- An ordinary word is an item. -/
theorem word
    (notEmpty : text ≠ [])
    (isName : ∀ c ∈ text, Text.isNameChar c = true)
    (ordinary : IsOrdinary text) :
    IsItem text :=
  ⟨fun _ ends worded => .word notEmpty isName ordinary ends worded⟩

/-- A blank or a mark may come first. -/
theorem between
    (isBetween : isBetween c = true)
    (item : IsItem more) :
    IsItem (c :: more) :=
  ⟨fun rest ends worded => .between isBetween (item.worded rest ends worded)⟩

/-- An item may follow behind a blank or a mark. -/
theorem follow
    (item : IsItem text)
    (isBetween : isBetween c = true)
    (later : IsItem more) :
    IsItem (text ++ c :: more) where
  worded rest ends worded := by
    rw [List.append_assoc]
    refine item.worded _ ?_ ((later.between isBetween).worded rest ends worded)
    rintro other ⟨⟩
    exact isBetween

/-- An item may follow behind a gap. -/
theorem gap
    {gap : List Char}
    (item : IsItem text)
    (isGap : IsGap gap)
    (later : IsItem more) :
    IsItem (text ++ (gap ++ more)) := by
  obtain ⟨notEmpty, blank⟩ := isGap
  have isBetween (c : Char) (member : c ∈ gap) : Sketch.isBetween c = true := by
    simp [Sketch.isBetween, blank c member]
  induction gap generalizing text with
  | nil => contradiction
  | cons c gap inductionHypothesis =>
      obtain ⟨_, blankOthers⟩ := List.forall_mem_cons.mp blank
      cases gap with
      | nil => exact item.follow (isBetween c List.mem_cons_self) later
      | cons next gap =>
          have others := inductionHypothesis nothing (List.cons_ne_nil next gap) blankOthers
            fun c member => isBetween c (List.mem_cons_of_mem _ member)
          exact item.follow (isBetween c List.mem_cons_self) others

/-- Whether a fixed word is ordinary and no number. -/
def isFixed (word : List Char) : Bool :=
  !word.isEmpty && word.all Text.isNameChar && !"NEO_".toList.isPrefixOf word &&
    word.head?.all fun c => !c.isDigit

/-- A word that is spelled out can be checked. -/
theorem fixed (check : isFixed text = true) : IsItem text := by
  simp only [isFixed, Bool.and_eq_true, Bool.not_eq_true', List.isEmpty_eq_false_iff,
    List.all_eq_true] at check
  obtain ⟨⟨⟨notEmpty, isName⟩, notOrder⟩, noDigit⟩ := check
  refine .word notEmpty isName ⟨fun begins => ?_, ?_⟩
  · rw [List.isPrefixOf_iff_prefix.mpr begins] at notOrder
    contradiction
  · rintro ⟨c, isHead, digit⟩
    rw [Option.mem_def.mp isHead] at noDigit
    simp [digit] at noDigit

/-- A type is an item. -/
theorem of_isType (isType : IsType text) : IsItem text := by
  have words : ∀ word ∈ typeWords, isFixed word.toList = true := by decide
  have pairs :
      ∀ pair ∈ typePairs, isFixed pair.1.toList = true ∧ isFixed pair.2.toList = true := by
    decide
  have sized :
      ∀ sign ∈ ["", "u"], ∀ width ∈ widths,
        isFixed (sign.toList ++ ("int".toList ++ (width.toList ++ "_t".toList))) = true := by
    decide
  cases isType with
  | sized isSign isWidth => exact fixed (sized _ isSign _ isWidth)
  | word member => exact fixed (words _ member)
  | pair member isGap => exact (fixed (pairs _ member).1).gap isGap (fixed (pairs _ member).2)

/-- A name is an item. -/
theorem of_isHeaderName (isName : IsHeaderName text) : IsItem text := by
  obtain ⟨first, isHead, starts⟩ := isName.isName.starts
  refine .word ?_ isName.isName.isName ⟨isName.notOrder, ?_⟩
  · rintro rfl
    contradiction
  · rintro ⟨c, isFirst, digit⟩
    cases Option.some.inj (isHead.symm.trans isFirst)
    have range : 48 ≤ first.toNat ∧ first.toNat ≤ 57 := Char.isDigit_iff_toNat.mp digit
    rw [Text.isNameStart, Bool.or_eq_true, Script.isAlpha_iff, decide_eq_true_eq] at starts
    rcases starts with letter | rfl
    · omega
    · contradiction

/-- Digits are an item. -/
theorem of_digits
    (notEmpty : text ≠ [])
    (digits : ∀ c ∈ text, c.isDigit = true) :
    IsItem text := by
  refine .word notEmpty (fun c member => Script.Nominal.isDigit c (digits c member))
    ⟨fun begins => ?_, fun _ => digits⟩
  have isDigit := digits 'N' (begins.subset (by decide))
  contradiction

/-- A name is an item with what is behind it. -/
theorem of_shape
    (isName : IsHeaderName text)
    (shape : Shape) :
    IsItem (text ++ shape.suffix) := by
  have name := of_isHeaderName isName
  cases shape with
  | plain | pointer | reference =>
      rw [Shape.suffix, List.append_nil]
      exact name
  | items => exact name.follow rfl (.between rfl .nothing)
  | array size notEmpty digits =>
      exact name.follow rfl ((of_digits notEmpty digits).follow rfl .nothing)

/-- Joined items are an item. -/
theorem joinArguments
    {items : List (List Char)}
    (areItems : ∀ item ∈ items, IsItem item) :
    IsItem (joinArguments items) := by
  induction items with
  | nil => exact .nothing
  | cons item items inductionHypothesis =>
      obtain ⟨isItem, others⟩ := List.forall_mem_cons.mp areItems
      cases items with
      | nil =>
          rw [joinArguments_singleton]
          exact isItem
      | cons next items =>
          rw [joinArguments_cons_cons]
          exact isItem.follow rfl ((inductionHypothesis others).between rfl)

end IsItem

/-- A parameter is an item. -/
theorem Parameter.isItem_text (parameter : Parameter) : IsItem parameter.text := by
  have name := IsItem.of_shape parameter.isName parameter.shape
  have linked :
      IsItem (parameter.type ++ (parameter.shape.link ++
        (parameter.name ++ parameter.shape.suffix))) := by
    have type := IsItem.of_isType (isType_of_takes parameter.isType)
    cases shape : parameter.shape with
    | pointer | reference =>
        rw [shape] at name
        exact type.follow rfl (name.between rfl)
    | plain | items | array =>
        rw [shape] at name
        exact type.follow rfl name
  have signed :
      IsItem (parameter.signText ++ (parameter.type ++ (parameter.shape.link ++
        (parameter.name ++ parameter.shape.suffix)))) := by
    unfold signText
    cases parameter.isUnsigned with
    | false => exact linked
    | true => exact (IsItem.fixed (rfl : IsItem.isFixed "unsigned".toList = true)).follow rfl linked
  unfold text constText
  cases parameter.isConst with
  | false => exact signed
  | true => exact (IsItem.fixed (rfl : IsItem.isFixed "const".toList = true)).follow rfl signed

/-- A parameter without its type is an item. -/
theorem Parameter.isItem_erased (parameter : Parameter) : IsItem parameter.erased :=
  (IsItem.fixed (rfl : IsItem.isFixed "let".toList = true)).follow rfl
    (.of_shape parameter.isName parameter.shape)

/-- A parameter without its type has a name, blanks and brackets. -/
theorem Parameter.mem_erased
    (parameter : Parameter)
    {c : Char}
    (member : c ∈ parameter.erased) :
    Text.isNameChar c = true ∨ c ∈ [' ', '[', ']'] := by
  have ofKeyword : ∀ c ∈ "let ".toList, Text.isNameChar c = true ∨ c ∈ [' ', '[', ']'] := by
    decide
  rw [erased, List.mem_append, List.mem_append] at member
  rcases member with inKeyword | inName | inSuffix
  · exact ofKeyword c inKeyword
  · exact .inl (parameter.isName.isName.isName c inName)
  · cases shape : parameter.shape with
    | plain | pointer | reference =>
        rw [shape] at inSuffix
        contradiction
    | items =>
        rw [shape] at inSuffix
        exact .inr (List.mem_cons_of_mem _ inSuffix)
    | array size notEmpty digits =>
        rw [shape, Shape.suffix, List.mem_cons, List.mem_append, List.mem_singleton] at inSuffix
        rcases inSuffix with rfl | inSize | rfl
        · exact .inr (by decide)
        · exact .inl (Script.Nominal.isDigit c (digits c inSize))
        · exact .inr (by decide)

/-- A header is made of ordinary words. -/
theorem worded_headerText
    {front : List Char}
    {parameters : List (List Char)}
    (isFront : IsItem front)
    (areItems : ∀ item ∈ parameters, IsItem item) :
    Worded IsOrdinary (headerText front parameters) := by
  have ending : IsItem [')', ' ', '\x7b', '\n', '\x7d'] :=
    .between rfl (.between rfl (.between rfl (.between rfl (.between rfl .nothing))))
  have behind :
      Worded IsOrdinary (joinArguments parameters ++ [')', ' ', '\x7b', '\n', '\x7d']) := by
    refine (IsItem.joinArguments areItems).worded _ ?_ (ending.worded [] nofun .finish)
    rintro c ⟨⟩
    rfl
  refine isFront.worded _ ?_ (.between rfl behind)
  rintro c ⟨⟩
  rfl

end Worded

namespace FunctionHeader

variable (header : FunctionHeader)

/-- A header as it is written is made of ordinary words. -/
theorem worded_text : Worded IsOrdinary header.text := by
  have result : IsItem header.result := by
    rcases header.isResult with isVoid | ⟨isType, -⟩
    · rw [isVoid]
      exact .fixed rfl
    · exact .of_isType (isType_of_takes isType)
  refine worded_headerText (result.follow rfl (.of_isHeaderName header.isName)) ?_
  simp only [List.mem_map, forall_exists_index, and_imp, forall_apply_eq_imp_iff₂]
  exact fun parameter _ => parameter.isItem_text

/-- A header without types is made of ordinary words. -/
theorem worded_erased : Worded IsOrdinary header.erased := by
  have keyword : IsItem header.keyword := by
    unfold keyword
    split <;> exact .fixed rfl
  refine worded_headerText (keyword.follow rfl (.of_isHeaderName header.isName)) ?_
  simp only [List.mem_map, forall_exists_index, and_imp, forall_apply_eq_imp_iff₂]
  exact fun parameter _ => parameter.isItem_erased

end FunctionHeader

end LedSketch.Sketch
