import LedSketch.Proofs.Sketch.ErasedDeclarations
import LedSketch.Proofs.Sketch.Headers

namespace LedSketch.Sketch

/-!
# Headers without types

The rule that erases types finds the declaration of every parameter, and that of the function
if it has a result, and nothing else in a header.
-/

open Pattern Vocabulary Catalogue
open Script (StopsAt)

section Declarators

variable {turns : Nat} {before : Option Char} {text rest out : List Char} {offset : Nat}

/-- Characters of a header that no declaration begins with. -/
def skipped : List Char := " (),[]\x7b\n\x7d0123456789".toList

theorem skipped_cases :
    ∀ c ∈ skipped, isPlain c = true ∧ declarators.pattern.mayStart c = false := by
  decide

theorem yields_skip
    {c : Char}
    (isSkipped : c ∈ skipped)
    (onward : declarators.Yields turns (some c) rest out) :
    declarators.Yields turns before (c :: rest) (c :: out) := by
  obtain ⟨isPlain, noStart⟩ := skipped_cases c isSkipped
  exact .plain isPlain (fun _ => matchAt?_eq_none_of_mayStart rfl noStart) onward

theorem yields_skipped
    (areSkipped : ∀ c ∈ text, c ∈ skipped)
    (onward : ∀ before, declarators.Yields turns before rest out) :
    declarators.Yields turns before (text ++ rest) (text ++ out) := by
  induction text generalizing before with
  | nil => exact onward before
  | cons c text inductionHypothesis =>
      obtain ⟨isSkipped, others⟩ := List.forall_mem_cons.mp areSkipped
      exact yields_skip isSkipped (inductionHypothesis others)

/-- The name of a function is no declaration. -/
theorem matchAt?_called
    (isName : ∀ c ∈ text, Text.isNameChar c = true) :
    declarators.pattern.matchAt? turns ⟨before, text ++ '(' :: rest, offset⟩ = none := by
  have linked : Needs (fun c => !Text.isNameChar c) link := by
    have ofMark : Needs (fun c => !Text.isNameChar c) (oneOf ['*', '&']) :=
      .char fun c isMark => by simp [(isMark_cases c (List.contains_iff_mem.mp isMark)).2]
    have ofBlank : Needs (fun c => !Text.isNameChar c) spaces1 :=
      .left (.char fun c isBlank => by simp [Script.not_isNameChar_of_isBlank isBlank])
    exact .either (.all ofMark (by simp)) ofBlank
  have needs : Needs (fun c => !Text.isNameChar c) declarators.pattern :=
    .right (.right (.right (.right (.left linked))))
  refine matchAt?_eq_none fun passed taken behind takes _ whole => ?_
  have stops : StopsAt declarators.pattern.mayTake ('(' :: rest) := by
    rintro c ⟨⟩
    decide
  obtain ⟨more, rfl, -⟩ := exists_of_stretch stops (fun c => takes.mayTake) whole
  obtain ⟨c, member, noName⟩ := needs passed taken takes
  simp [isName c (List.mem_append_left more member)] at noName

/-- A function without a result is no declaration. -/
theorem matchAt?_void :
    declarators.pattern.matchAt? turns ⟨before, "void".toList ++ ' ' :: rest, offset⟩ = none := by
  let start : Progress := ⟨⟨before, "void".toList ++ ' ' :: rest, offset⟩, []⟩
  have stops : StopsAt Text.isNameChar (' ' :: rest) := by
    rintro c ⟨⟩
    decide
  have noQualifier : Fails turns (leadingWord ["const", "static", "volatile"]) start :=
    fails_leadingWord areApart_qualifiers (by decide) stops rfl (by decide)
  have noSign : Fails turns (leadingWord ["unsigned", "signed"]) start :=
    fails_leadingWord areApart_signs (by decide) stops rfl (by decide : "void" ∉ _)
  have noType : Fails turns (any typePatterns) start :=
    .of_mayStart rfl (by rintro c ⟨⟩; decide)
  have nothing : declarators.pattern.search Text.isWordChar turns some start = none := by
    rw [declarators_pattern, search_seq, search, search_seq, search_zeroOrMore_of_fails noQualifier,
      search_seq, search_optional_of_fails noSign, search_seq, noType.stuck, ite_self]
  simp only [matchAt?, nothing, start]

theorem yields_void
    {name later : List Char}
    (isName : IsName name)
    (onward : ∀ before, declarators.Yields turns before ('(' :: later) out) :
    declarators.Yields turns none ("void".toList ++ ' ' :: (name ++ '(' :: later))
      ("void".toList ++ ' ' :: (name ++ out)) := by
  have ofName (before : Option Char) :
      declarators.Yields turns before (name ++ '(' :: later) (name ++ out) :=
    .word .wordEdge isName.notEmpty isName.isName (fun _ => matchAt?_called isName.isName)
      onward
  exact .word .wordEdge (by decide) (by decide) (fun _ => matchAt?_void) fun before =>
    yields_skip (by decide) (ofName (some ' '))

theorem yields_declaration
    {declaration : Declaration}
    (oneLine : '\n' ∉ declaration.text)
    (outside : isWordAt Text.isWordChar before = false)
    (ends : ∀ c ∈ rest.head?, c ∈ headerMarks)
    (enough : declaration.text.length ≤ turns)
    (onward : ∀ before, declarators.Yields turns before rest out) :
    declarators.Yields turns before (declaration.text ++ rest)
      ("let ".toList ++ declaration.name ++ out) := by
  have stops : StopsAt Text.isWordChar rest := by
    have known : ∀ c ∈ headerMarks, Text.isWordChar c = false := by decide
    exact fun c isHead => known c (ends c isHead)
  have yields := declaration.yields outside stops enough onward
  rwa [declaration.lineEnds_of_oneLine oneLine] at yields

theorem Shape.suffix_skipped (shape : Shape) : ∀ c ∈ shape.suffix, c ∈ skipped := by
  have digit {c : Char} (isDigit : c.isDigit = true) : c ∈ skipped := by
    have range : 48 ≤ c.toNat ∧ c.toNat ≤ 57 := Char.isDigit_iff_toNat.mp isDigit
    have known : ∀ codePoint < 58, 48 ≤ codePoint → Char.ofNat codePoint ∈ skipped := by decide
    rw [← Char.ofNat_toNat c]
    exact known c.toNat (by omega) range.1
  cases shape with
  | plain | pointer | reference => simp [suffix]
  | items =>
      simp only [suffix]
      decide
  | array size notEmpty digits =>
      simp only [suffix, List.mem_cons, List.mem_append, List.not_mem_nil, or_false]
      rintro c (rfl | member | rfl)
      · decide
      · exact digit (digits c member)
      · decide

theorem Shape.ends_suffix
    (shape : Shape)
    (ends : ∀ c ∈ rest.head?, c ∈ headerMarks) :
    ∀ c ∈ (shape.suffix ++ rest).head?, c ∈ headerMarks := by
  cases shape with
  | plain | pointer | reference => exact ends
  | items | array =>
      rintro c ⟨⟩
      decide

theorem Parameter.notMem_declaration (parameter : Parameter) :
    '\n' ∉ parameter.declaration.text := by
  have noConst : '\n' ∉ parameter.constText := by
    unfold constText
    split <;> decide
  have noSign : '\n' ∉ parameter.signText := by
    unfold signText
    split <;> decide
  have noLink : '\n' ∉ parameter.shape.link := by
    cases parameter.shape <;> simp [Shape.link]
  simp only [declaration, Declaration.text, List.mem_append, not_or]
  exact ⟨noConst, noSign, parameter.oneLine, noLink, parameter.isName.oneLine⟩

theorem yields_parameter
    (parameter : Parameter)
    (outside : isWordAt Text.isWordChar before = false)
    (ends : ∀ c ∈ rest.head?, c ∈ headerMarks)
    (enough : parameter.text.length ≤ turns)
    (onward : ∀ before, declarators.Yields turns before rest out) :
    declarators.Yields turns before (parameter.text ++ rest) (parameter.erased ++ out) := by
  rw [parameter.text_eq] at enough ⊢
  rw [List.length_append] at enough
  rw [List.append_assoc, Parameter.erased, List.append_assoc, List.append_assoc,
    ← List.append_assoc "let ".toList]
  exact yields_declaration parameter.notMem_declaration outside
    (parameter.shape.ends_suffix ends) (by omega)
    fun before => yields_skipped parameter.shape.suffix_skipped onward

theorem yields_parameters
    {parameters : List Parameter}
    (outside : isWordAt Text.isWordChar before = false)
    (ends : ∀ c ∈ rest.head?, c ∈ headerMarks)
    (enough : ∀ parameter ∈ parameters, parameter.text.length ≤ turns)
    (onward : ∀ before, declarators.Yields turns before rest out) :
    declarators.Yields turns before
      (joinArguments (parameters.map Parameter.text) ++ rest)
      (joinArguments (parameters.map Parameter.erased) ++ out) := by
  induction parameters generalizing before with
  | nil => exact onward before
  | cons parameter parameters inductionHypothesis =>
      obtain ⟨enoughHere, enoughOthers⟩ := List.forall_mem_cons.mp enough
      cases parameters with
      | nil =>
          simp only [List.map_cons, List.map_nil, joinArguments_singleton]
          exact yields_parameter parameter outside ends enoughHere onward
      | cons next parameters =>
          have others := @inductionHypothesis (some ' ') (by decide) enoughOthers
          simp only [List.map_cons, joinArguments_cons_cons, List.append_assoc,
            List.cons_append] at others ⊢
          refine yields_parameter parameter outside ?_ enoughHere fun before =>
            yields_skip (by decide) (yields_skip (by decide) others)
          rintro c ⟨⟩
          decide

end Declarators

theorem length_le_joinArguments
    {items : List (List Char)}
    {item : List Char}
    (member : item ∈ items) :
    item.length ≤ (joinArguments items).length := by
  induction items with
  | nil => contradiction
  | cons first items inductionHypothesis =>
      cases items with
      | nil => rw [List.mem_singleton.mp member, joinArguments_singleton]
      | cons next items =>
          rw [joinArguments_cons_cons, List.length_append, List.length_cons, List.length_cons]
          rcases List.mem_cons.mp member with rfl | member
          · omega
          · have within := inductionHypothesis member
            omega

namespace FunctionHeader

variable (header : FunctionHeader)

/-- The declaration of a function with a result, without its parameters. -/
def declaration (isType : IsType header.result) : Declaration where
  qualifiers := []
  sign := []
  type := header.result
  link := [' ']
  name := header.name
  areQualifiers := .none
  isSign := .none
  isType := isType
  isLink := .gap isGap_blank
  isName := header.isName.isName
  isNew := header.isName.isNew

/-- The rule that erases types leaves the keywords and the names of a header. -/
theorem apply_declarators : (declarators.apply header.text).1 = header.erased := by
  have enough : ∀ parameter ∈ header.parameters,
      parameter.text.length ≤ header.text.length := by
    intro parameter member
    have within := length_le_joinArguments (List.mem_map_of_mem (f := Parameter.text) member)
    simp only [text, headerText, List.length_append, List.length_cons]
    omega
  have behind (before : Option Char) :
      declarators.Yields header.text.length before
        ('(' :: (joinArguments (header.parameters.map Parameter.text) ++
          [')', ' ', '\x7b', '\n', '\x7d']))
        ('(' :: (joinArguments (header.parameters.map Parameter.erased) ++
          [')', ' ', '\x7b', '\n', '\x7d'])) := by
    refine yields_skip (by decide) (yields_parameters (by decide) ?_ enough fun before => ?_)
    · rintro c ⟨⟩
      decide
    · have ending := @yields_skipped header.text.length before
        [')', ' ', '\x7b', '\n', '\x7d'] [] [] (by decide) fun before => .nil
      exact ending
  have erasedFront :
      declarators.Yields header.text.length none
        (header.result ++ ' ' :: (header.name ++ '(' ::
          (joinArguments (header.parameters.map Parameter.text) ++
            [')', ' ', '\x7b', '\n', '\x7d'])))
        (header.keyword ++ ' ' :: (header.name ++ '(' ::
          (joinArguments (header.parameters.map Parameter.erased) ++
            [')', ' ', '\x7b', '\n', '\x7d']))) := by
    unfold keyword
    by_cases isVoid : header.result = "void".toList
    · rw [if_pos isVoid, isVoid]
      exact yields_void header.isName.isName behind
    · obtain ⟨isType, oneLine⟩ := header.isResult.resolve_left isVoid
      rw [if_neg isVoid]
      have isDeclaration : (header.declaration (isType_of_takes isType)).text =
          header.result ++ ' ' :: header.name := by
        simp [declaration, Declaration.text]
      have begins : (header.declaration (isType_of_takes isType)).text <+: header.text := by
        rw [isDeclaration]
        exact List.prefix_append _ _
      have noLineEnd : '\n' ∉ (header.declaration (isType_of_takes isType)).text := by
        rw [isDeclaration]
        simp [oneLine, header.isName.oneLine]
      have yields :=
        @yields_declaration header.text.length none _ _ _ noLineEnd rfl
          (by rintro c ⟨⟩; decide) begins.length_le behind
      rw [isDeclaration] at yields
      simpa [declaration] using yields
  have yields : declarators.Yields header.text.length none header.text header.erased := by
    simpa [text, erased, headerText] using erasedFront
  exact Rule.apply_of_yields yields

end FunctionHeader

end LedSketch.Sketch
