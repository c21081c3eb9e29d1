import LedSketch.Proofs.Script.ExpressionsRead

namespace LedSketch.Script

/-!
# Reading rendered statements

The tokens of a statement are read as that statement, unless it ends with a branch and an
`else` stands behind it.  Each form of statement is read from its tokens if its parts are.
-/

/-- A variable whose value is read back from its tokens. -/
def Declarator.Readable (declarator : Declarator) : Prop :=
  ∀ value ∈ declarator.init, value.Readable

/-- A parameter whose value is read back from its tokens. -/
def Parameter.Readable (parameter : Parameter) : Prop :=
  ∀ value ∈ parameter.default, value.Readable

/-- The first clause of a counting loop that is read back from its tokens. -/
def ForInit.Readable : ForInit → Prop
  | .nothing => True
  | .declare _ declarators =>
      declarators ≠ [] ∧ ∀ declarator ∈ declarators, declarator.Readable
  | .expr value => value.Readable

open LedSketch.Script.Parser in
/-- A statement that is read back from its tokens. -/
structure Stmt.Readable (stmt : Stmt) : Prop where
  starts :
    ∃ kind others,
      stmt.spell = kind :: others ∧
        endsCase kind = false ∧ kind.isKeyword .elseWord = false
  reads :
    ∀ line depth rest,
      32 * stmt.spell.length ≤ depth →
      (stmt.isOpen = true → (kindOf rest).isKeyword .elseWord = false) →
      (statement depth).run (spelledOn line stmt.spell ++ rest) = .ok (stmt.onLine line, rest)

/-- A case that is read back from its tokens. -/
structure SwitchCase.Readable (case : SwitchCase) : Prop where
  tested : ∀ value ∈ case.test, value.Readable
  parts : ∀ stmt ∈ case.body, stmt.Readable

namespace Parser

section Clauses

variable {line depth : Nat} {rest : List Token}

/-- What ends an expression assigns nothing. -/
theorem isPunct_assign_of_stops
    {kind : TokenKind}
    (stops : Stops 0 kind) :
    kind.isPunct .assign = false := by
  cases kind with
  | punct mark =>
      by_cases same : mark = .assign
      · subst same
        have noAssignment := stops.assignment rfl
        contradiction
      · simp [TokenKind.isPunct, same]
  | _ => rfl

/-- What starts an operand opens no declaration. -/
theorem opensDeclaration_of_startsOperand
    {kind : TokenKind}
    (isStart : startsOperand kind = true) :
    opensDeclaration kind = false := by
  cases kind with
  | keyword word => cases word <;> first | rfl | contradiction
  | _ => rfl

/-- What starts an operand ends no case. -/
theorem endsCase_of_startsOperand
    {kind : TokenKind}
    (isStart : startsOperand kind = true) :
    endsCase kind = false ∧ kind.isKeyword .elseWord = false := by
  cases kind with
  | keyword word => cases word <;> first | exact ⟨rfl, rfl⟩ | contradiction
  | punct mark => cases mark <;> first | exact ⟨rfl, rfl⟩ | contradiction
  | endOfInput => contradiction
  | _ => exact ⟨rfl, rfl⟩

/-- Tokens that start with an operand are those of a statement that is an expression. -/
theorem run_statement_of_startsOperand
    {tokens : List Token}
    {outcome : Except ParseError (Stmt × List Token)}
    (isStart : startsOperand (kindOf tokens) = true)
    (read :
      (do
          let value ← expression depth
          expect .semicolon "`;` after expression"
          return .expr value : Parser Stmt).run tokens =
        outcome) :
    (statement (depth + 1)).run tokens = outcome := by
  refine run_bind rfl (run_bind rfl ?_)
  cases first : kindOf tokens with
  | keyword word => cases word <;> first | exact read | simp [first, startsOperand] at isStart
  | punct mark => cases mark <;> first | exact read | simp [first, startsOperand] at isStart
  | _ => exact read

/-- A condition is read back from its spelling. -/
theorem run_condition
    {test : Expr}
    (tested : test.Readable)
    (enough : 32 * test.spell.length ≤ depth) :
    (condition depth).run (spelledOn line (spellCondition test) ++ rest) =
      .ok (test.onLine line, rest) := by
  simp only [spellCondition, spelledOn_cons, spelledOn_append, spelledOn_nil,
    List.cons_append, List.append_assoc, List.nil_append]
  refine run_bind (run_expect rfl _) ?_
  refine run_bind (tested.readsWhole_spell line depth _ (by omega) (.of_mark (by simp) 0)) ?_
  exact run_bind (run_expect rfl _) rfl

theorem run_optionalInit
    {init : Option Expr}
    (readable : ∀ value ∈ init, value.Readable)
    (enough : 32 * (spellInit init).length ≤ depth)
    (stops : Stops 0 (kindOf rest)) :
    (optionalInit depth).run (spelledOn line (spellInit init) ++ rest) =
      .ok (init.map (Expr.onLine line), rest) := by
  cases init with
  | none => exact run_bind (run_takes_other (isPunct_assign_of_stops stops)) rfl
  | some value =>
      simp only [spellInit, List.length_cons] at enough
      have read := (readable value rfl).readsWhole_spell
      refine run_bind (run_takes_next rfl) ?_
      exact run_bind (read line depth rest (by omega) stops) rfl

/-- Declarators are read back from their spelling. -/
theorem run_declarators
    {declared : List Declarator}
    (readable : ∀ declarator ∈ declared, declarator.Readable)
    (nonempty : declared ≠ [])
    (enough : 32 * (commaSeparated (declared.map Declarator.spell)).length < depth) :
    (declarators depth).run
        (spelledOn line (commaSeparated (declared.map Declarator.spell)) ++
          ⟨.punct .semicolon, line, [], []⟩ :: rest) =
      .ok (declared.map (Declarator.onLine line), ⟨.punct .semicolon, line, [], []⟩ :: rest) := by
  refine run_commaSeparated declarators ?_ ?_ nonempty depth enough
  · intro declarator member below isEnough
    simp only [Declarator.spell, List.length_cons] at isEnough
    refine run_bind (run_name rfl _) ?_
    refine run_bind
      (run_optionalInit (readable declarator member) (by omega) (.of_mark (by simp) 0)) ?_
    exact run_bind (run_takes_other rfl) rfl
  · intro declarator member below onward others isEnough read
    simp only [Declarator.spell, List.length_cons] at isEnough
    refine run_bind (run_name rfl _) ?_
    refine run_bind
      (run_optionalInit (readable declarator member) (by omega) (.of_mark (by simp) 0)) ?_
    exact run_bind (run_takes_next rfl) (run_bind read rfl)

/-- Parameters are read back from their spelling. -/
theorem run_parameters
    {declared : List Parameter}
    (readable : ∀ parameter ∈ declared, parameter.Readable)
    (enough : 32 * (commaSeparated (declared.map Parameter.spell)).length < depth) :
    (parameters depth).run
        (spelledOn line (commaSeparated (declared.map Parameter.spell)) ++
          ⟨.punct .rightParen, line, [], []⟩ :: rest) =
      .ok (declared.map (Parameter.onLine line), rest) := by
  obtain ⟨above, rfl⟩ : ∃ above, depth = above + 1 := ⟨depth - 1, by omega⟩
  cases declared with
  | nil => exact run_bind (run_takes_next rfl) rfl
  | cons parameter others =>
      refine run_commaSeparated parameters ?_ ?_ (List.cons_ne_nil parameter others) _ enough
      · intro parameter member below isEnough
        simp only [Parameter.spell, List.length_cons] at isEnough
        refine run_bind (run_takes_other rfl) (run_bind (run_name rfl _) ?_)
        refine run_bind
          (run_optionalInit (readable parameter member) (by omega) (.of_mark (by simp) 0)) ?_
        exact run_bind (run_takes_other rfl) (run_bind (run_expect rfl _) rfl)
      · intro parameter member below onward others isEnough read
        simp only [Parameter.spell, List.length_cons] at isEnough
        refine run_bind (run_takes_other rfl) (run_bind (run_name rfl _) ?_)
        refine run_bind
          (run_optionalInit (readable parameter member) (by omega) (.of_mark (by simp) 0)) ?_
        exact run_bind (run_takes_next rfl) (run_bind read rfl)

/-- What may be left out before a semicolon is read back. -/
theorem run_unlessNext
    {found : Option Expr}
    (readable : ∀ value ∈ found, value.Readable)
    (enough : 32 * (spellOptional found).length ≤ depth) :
    (unlessNext .semicolon depth).run
        (spelledOn line (spellOptional found) ++ ⟨.punct .semicolon, line, [], []⟩ :: rest) =
      .ok (found.map (Expr.onLine line), ⟨.punct .semicolon, line, [], []⟩ :: rest) := by
  cases found with
  | none => exact run_bind rfl rfl
  | some value =>
      have isReadable := readable value rfl
      have noStart : startsOperand (.punct .semicolon) = false := rfl
      have notNext := isReadable.kindOf_spell noStart line
        (⟨.punct .semicolon, line, [], []⟩ :: rest)
      refine run_bind rfl ?_
      simp only [spellOptional, notNext]
      exact run_bind (isReadable.readsWhole_spell line depth _ enough (.of_mark (by simp) 0)) rfl

/-- The steps of a loop are read back from their spelling. -/
theorem run_steps
    {stepped : List Expr}
    (readable : ∀ expr ∈ stepped, expr.Readable)
    (nonempty : stepped ≠ [])
    (enough : 32 * (commaSeparated (stepped.map Expr.spell)).length < depth) :
    (steps depth).run
        (spelledOn line (commaSeparated (stepped.map Expr.spell)) ++
          ⟨.punct .rightParen, line, [], []⟩ :: rest) =
      .ok (stepped.map (Expr.onLine line), ⟨.punct .rightParen, line, [], []⟩ :: rest) := by
  refine run_commaSeparated steps ?_ ?_ nonempty depth enough
  · intro expr member below isEnough
    have read := (readable expr member).readsWhole_spell
    refine run_bind (read line below _ isEnough (.of_mark (by simp) 0)) ?_
    exact run_bind (run_takes_other rfl) rfl
  · intro expr member below onward others isEnough onwardRead
    have read := (readable expr member).readsWhole_spell
    refine run_bind (read line below _ isEnough (.of_mark (by simp) 0)) ?_
    exact run_bind (run_takes_next rfl) (run_bind onwardRead rfl)

theorem run_forSteps
    {stepped : List Expr}
    (readable : ∀ expr ∈ stepped, expr.Readable)
    (enough : 32 * (commaSeparated (stepped.map Expr.spell)).length < depth) :
    (forSteps depth).run
        (spelledOn line (commaSeparated (stepped.map Expr.spell)) ++
          ⟨.punct .rightParen, line, [], []⟩ :: rest) =
      .ok (stepped.map (Expr.onLine line), ⟨.punct .rightParen, line, [], []⟩ :: rest) := by
  cases stepped with
  | nil => exact run_bind rfl rfl
  | cons first others =>
      obtain ⟨behind, spelled⟩ := commaSeparated_cons first.spell (others.map Expr.spell)
      have isReadable := readable first List.mem_cons_self
      have noStart : startsOperand (.punct .rightParen) = false := rfl
      have notNext := isReadable.kindOf_spell noStart line
        (spelledOn line behind ++ ⟨.punct .rightParen, line, [], []⟩ :: rest)
      refine run_bind rfl ?_
      simp only [List.map_cons, spelled, spelledOn_append, List.append_assoc, notNext]
      have read := @run_steps line depth rest _ readable (List.cons_ne_nil first others) enough
      simp only [List.map_cons, spelled, spelledOn_append, List.append_assoc] at read
      exact read

/-- The beginning of a loop is read back from its spelling. -/
theorem run_forInit
    {init : ForInit}
    (readable : init.Readable)
    (enough : 32 * init.spell.length ≤ depth) :
    (forInit depth).run
        (spelledOn line init.spell ++ ⟨.punct .semicolon, line, [], []⟩ :: rest) =
      .ok (init.onLine line, ⟨.punct .semicolon, line, [], []⟩ :: rest) := by
  cases init with
  | nothing => exact run_bind rfl rfl
  | declare written declarators =>
      obtain ⟨nonempty, isReadable⟩ := readable
      simp only [ForInit.spell, spellDeclaration, List.length_cons] at enough
      refine run_bind rfl (run_bind rfl (run_bind (run_skip rfl rfl) ?_))
      exact run_bind (run_declarators isReadable nonempty (by omega)) rfl
  | expr value =>
      have isReadable : value.Readable := readable
      obtain ⟨kind, others, spelled, isStart⟩ := isReadable.starts
      have read := isReadable.readsWhole_spell line depth
        (⟨.punct .semicolon, line, [], []⟩ :: rest) enough (.of_mark (by simp) 0)
      have notNext : kind.isPunct .semicolon = false := isPunct_of_startsOperand isStart rfl
      have noDeclaration := opensDeclaration_of_startsOperand isStart
      simp only [ForInit.spell, spelled, spelledOn_cons, List.cons_append] at read ⊢
      refine run_bind rfl ?_
      simp only [kindOf_cons, notNext, noDeclaration]
      exact run_bind read rfl

/-- The test of a case is read back from its spelling. -/
theorem run_caseTest
    {test : Option Expr}
    (readable : ∀ value ∈ test, value.Readable)
    (enough : 32 * (spellCaseTest test).length ≤ depth) :
    (caseTest depth).run
        (spelledOn line (spellCaseTest test) ++ ⟨.punct .colon, line, [], []⟩ :: rest) =
      .ok (test.map (Expr.onLine line), ⟨.punct .colon, line, [], []⟩ :: rest) := by
  cases test with
  | none =>
      refine run_bind (run_takesKeyword_other rfl) ?_
      exact run_bind (run_takesKeyword_next rfl) rfl
  | some value =>
      simp only [spellCaseTest, List.length_cons] at enough
      have read := (readable value rfl).readsWhole_spell
      refine run_bind (run_takesKeyword_next rfl) ?_
      exact run_bind (read line depth _ (by omega) (.of_mark (by simp) 0)) rfl

end Clauses

section Bodies

variable {line depth : Nat} {rest after : List Token}

theorem isKeyword_else_of_endsCase
    {kind : TokenKind}
    (ends : endsCase kind = true) :
    kind.isKeyword .elseWord = false := by
  cases kind with
  | keyword word => cases word <;> first | rfl | contradiction
  | _ => rfl

/-- Statements do not begin with `else`. -/
theorem kindOf_spellAll
    {body : List Stmt}
    (readable : ∀ stmt ∈ body, stmt.Readable)
    (noElse : (kindOf rest).isKeyword .elseWord = false) :
    (kindOf (spelledOn line (Stmt.spellAll body) ++ rest)).isKeyword .elseWord = false := by
  cases body with
  | nil => exact noElse
  | cons stmt stmts =>
      obtain ⟨kind, others, spelled, goesOn, notElse⟩ :=
        (readable stmt List.mem_cons_self).starts
      simpa [Stmt.spellAll, spelled] using notElse

/-- Statements are read off their tokens, up to something that ends them. -/
theorem run_spellAll
    (parser : Nat → Parser (List Stmt))
    {body : List Stmt}
    (ends : ∀ depth, (parser (depth + 1)).run rest = .ok ([], after))
    (goesOn :
      ∀ depth tokens first onward others,
        endsCase (kindOf tokens) = false →
        (statement depth).run tokens = .ok (first, onward) →
        (parser depth).run onward = .ok (others, after) →
        (parser (depth + 1)).run tokens = .ok (first :: others, after))
    (noElse : (kindOf rest).isKeyword .elseWord = false)
    (readable : ∀ stmt ∈ body, stmt.Readable)
    (enough : 32 * (Stmt.spellAll body).length < depth) :
    (parser depth).run (spelledOn line (Stmt.spellAll body) ++ rest) =
      .ok (Stmt.onLineEach line body, after) := by
  induction body generalizing depth with
  | nil =>
      obtain ⟨below, rfl⟩ : ∃ below, depth = below + 1 := ⟨depth - 1, by omega⟩
      exact ends below
  | cons stmt stmts inductionHypothesis =>
      obtain ⟨first, others⟩ := List.forall_mem_cons.mp readable
      obtain ⟨kind, behind, spelled, notEnd, notElse⟩ := first.starts
      have size :
          (Stmt.spellAll (stmt :: stmts)).length =
            stmt.spell.length + (Stmt.spellAll stmts).length := by
        simp [Stmt.spellAll]
      have nonempty : 0 < stmt.spell.length := by simp [spelled]
      obtain ⟨below, rfl⟩ : ∃ below, depth = below + 1 := ⟨depth - 1, by omega⟩
      have read := first.reads line below (spelledOn line (Stmt.spellAll stmts) ++ rest)
        (by omega) fun _ => kindOf_spellAll others noElse
      have onward := @inductionHypothesis below others (by omega)
      simp only [Stmt.spellAll, spelledOn_append, List.append_assoc]
      exact goesOn below _ _ _ _ (by simpa [spelled] using notEnd) read onward

/-- The statements of a block are read back from their spelling. -/
theorem run_block
    {body : List Stmt}
    (readable : ∀ stmt ∈ body, stmt.Readable)
    (enough : 32 * (Stmt.spellAll body).length < depth) :
    (block depth).run
        (spelledOn line (Stmt.spellAll body) ++ ⟨.punct .rightBrace, line, [], []⟩ :: rest) =
      .ok (Stmt.onLineEach line body, rest) := by
  refine run_spellAll block ?_ ?_ rfl readable enough
  · exact fun depth => run_bind (run_takes_next rfl) rfl
  · intro depth tokens first onward others goesOn read onwardRead
    simp only [endsCase, Bool.or_eq_false_iff] at goesOn
    obtain ⟨⟨_, notClosed⟩, notEnd⟩ := goesOn
    refine run_bind (run_takes_other notClosed) (run_bind rfl ?_)
    simp only [notEnd]
    exact run_bind read (run_bind onwardRead rfl)

/-- The statements of a case are read back from their spelling. -/
theorem run_caseBody
    {body : List Stmt}
    (readable : ∀ stmt ∈ body, stmt.Readable)
    (ends : endsCase (kindOf rest) = true)
    (enough : 32 * (Stmt.spellAll body).length < depth) :
    (caseBody depth).run (spelledOn line (Stmt.spellAll body) ++ rest) =
      .ok (Stmt.onLineEach line body, rest) := by
  refine run_spellAll caseBody ?_ ?_ (isKeyword_else_of_endsCase ends) readable enough
  · intro depth
    refine run_bind rfl ?_
    simp only [ends]
    rfl
  · intro depth tokens first onward others goesOn read onwardRead
    refine run_bind rfl ?_
    simp only [goesOn]
    exact run_bind read (run_bind onwardRead rfl)

/-- The statements of a program are read back from their spelling. -/
theorem run_program
    {body : List Stmt}
    (readable : ∀ stmt ∈ body, stmt.Readable)
    (enough : 32 * (Stmt.spellAll body).length < depth) :
    (program depth).run
        (spelledOn line (Stmt.spellAll body) ++ [⟨.endOfInput, line, [], []⟩]) =
      .ok (Stmt.onLineEach line body, [⟨.endOfInput, line, [], []⟩]) := by
  refine run_spellAll program ?_ ?_ rfl readable enough
  · exact fun depth => run_bind rfl rfl
  · intro depth tokens first onward others goesOn read onwardRead
    simp only [endsCase, Bool.or_eq_false_iff] at goesOn
    refine run_bind rfl ?_
    simp only [goesOn.2]
    exact run_bind read (run_bind onwardRead rfl)

/-- Cases begin with a token that ends the case before. -/
theorem endsCase_spellAll
    (cases : List SwitchCase)
    (line : Nat)
    (rest : List Token) :
    endsCase
        (kindOf
          (spelledOn line (SwitchCase.spellAll cases) ++
            ⟨.punct .rightBrace, line, [], []⟩ :: rest)) =
      true := by
  match cases with
  | [] => rfl
  | .mk none body :: others => rfl
  | .mk (some value) body :: others => rfl

/-- The cases of a switch are read back from their spelling. -/
theorem run_switchCases
    {cases : List SwitchCase}
    (readable : ∀ case ∈ cases, case.Readable)
    (enough : 32 * (SwitchCase.spellAll cases).length < depth) :
    (switchCases depth).run
        (spelledOn line (SwitchCase.spellAll cases) ++
          ⟨.punct .rightBrace, line, [], []⟩ :: rest) =
      .ok (SwitchCase.onLineEach line cases, rest) := by
  induction cases generalizing depth with
  | nil =>
      obtain ⟨below, rfl⟩ : ∃ below, depth = below + 1 := ⟨depth - 1, by omega⟩
      exact run_bind (run_takes_next rfl) rfl
  | cons case cases inductionHypothesis =>
      obtain ⟨first, others⟩ := List.forall_mem_cons.mp readable
      obtain ⟨test, body⟩ := case
      have size :
          (SwitchCase.spellAll (.mk test body :: cases)).length =
            (spellCaseTest test).length + (Stmt.spellAll body).length + 1 +
              (SwitchCase.spellAll cases).length := by
        simp [SwitchCase.spellAll, SwitchCase.spell]; omega
      have nonempty : 0 < (spellCaseTest test).length := by cases test <;> simp [spellCaseTest]
      have notClosed :
          (kindOf (spelledOn line (SwitchCase.spellAll (.mk test body :: cases)) ++
            ⟨.punct .rightBrace, line, [], []⟩ :: rest)).isPunct .rightBrace = false := by
        cases test <;> rfl
      obtain ⟨below, rfl⟩ : ∃ below, depth = below + 1 := ⟨depth - 1, by omega⟩
      have onward := @inductionHypothesis below others (by omega)
      refine run_bind (run_takes_other notClosed) ?_
      simp only [SwitchCase.spellAll, SwitchCase.spell, spelledOn_append, spelledOn_cons,
        List.append_assoc, List.cons_append]
      refine run_bind (run_caseTest first.tested (by omega)) ?_
      refine run_bind (run_expect rfl _) ?_
      refine run_bind (run_caseBody first.parts (endsCase_spellAll cases line rest) (by omega)) ?_
      exact run_bind onward rfl

end Bodies

end Parser

namespace Stmt.Readable

open LedSketch.Script.Parser

variable {line : Nat}

/-- A statement that its first token tells apart, and that nothing behind it goes on with. -/
theorem of_closed
    {stmt : Stmt}
    {kind : TokenKind}
    {kinds : List TokenKind}
    (spelled : stmt.spell = kind :: kinds)
    (goesOn : endsCase kind = false)
    (notElse : kind.isKeyword .elseWord = false)
    (read :
      ∀ line depth rest,
        32 * kinds.length + 31 ≤ depth →
        (stmt.isOpen = true → (kindOf rest).isKeyword .elseWord = false) →
        (statement (depth + 1)).run (⟨kind, line, [], []⟩ :: (spelledOn line kinds ++ rest)) =
          .ok (stmt.onLine line, rest)) :
    stmt.Readable where
  starts := ⟨kind, kinds, spelled, goesOn, notElse⟩
  reads := by
    intro line depth rest enough noElse
    simp only [spelled, List.length_cons] at enough
    obtain ⟨below, rfl⟩ : ∃ below, depth = below + 1 := ⟨depth - 1, by omega⟩
    simp only [spelled, spelledOn_cons, List.cons_append]
    exact read line below rest (by omega) noElse

theorem empty : Stmt.empty.Readable := by
  refine of_closed rfl rfl rfl fun line depth rest enough noElse => ?_
  exact run_bind rfl (run_bind rfl (run_bind (run_skip rfl rfl) rfl))

theorem breaks : (Stmt.breaks line).Readable := by
  refine of_closed rfl rfl rfl fun line depth rest enough noElse => ?_
  refine run_bind rfl (run_bind rfl (run_bind (run_skip rfl rfl) ?_))
  exact run_bind (run_expect rfl _) rfl

theorem continues : (Stmt.continues line).Readable := by
  refine of_closed rfl rfl rfl fun line depth rest enough noElse => ?_
  refine run_bind rfl (run_bind rfl (run_bind (run_skip rfl rfl) ?_))
  exact run_bind (run_expect rfl _) rfl

theorem returns
    {value : Option Expr}
    (readable : ∀ expr ∈ value, expr.Readable) :
    (Stmt.returns line value).Readable := by
  refine of_closed rfl rfl rfl fun line depth rest enough noElse => ?_
  simp only [List.length_append, List.length_cons, List.length_nil] at enough
  simp only [spelledOn_append, spelledOn_cons, spelledOn_nil, List.append_assoc,
    List.cons_append, List.nil_append]
  refine run_bind rfl (run_bind rfl (run_bind (run_skip rfl rfl) ?_))
  refine run_bind (run_unlessNext readable (by omega)) ?_
  exact run_bind (run_expect rfl _) rfl

theorem block
    {body : List Stmt}
    (readable : ∀ stmt ∈ body, stmt.Readable) :
    (Stmt.block body).Readable := by
  refine of_closed rfl rfl rfl fun line depth rest enough noElse => ?_
  simp only [List.length_append, List.length_cons, List.length_nil] at enough
  simp only [spelledOn_append, spelledOn_cons, spelledOn_nil, List.append_assoc,
    List.cons_append, List.nil_append]
  refine run_bind rfl (run_bind rfl (run_bind (run_skip rfl rfl) ?_))
  exact run_bind (run_block readable (by omega)) rfl

theorem declare
    {declarators : List Declarator}
    (readable : ∀ declarator ∈ declarators, declarator.Readable)
    (nonempty : declarators ≠ []) :
    (Stmt.declare line declarators).Readable := by
  have spelled :
      (Stmt.declare line declarators).spell =
        .keyword .letWord ::
          (commaSeparated (declarators.map Declarator.spell) ++ [.punct .semicolon]) :=
    rfl
  refine of_closed spelled rfl rfl fun line depth rest enough noElse => ?_
  simp only [List.length_append, List.length_cons, List.length_nil] at enough
  simp only [spelledOn_append, spelledOn_cons, spelledOn_nil, List.append_assoc,
    List.cons_append, List.nil_append]
  refine run_bind rfl (run_bind rfl (run_bind (run_skip rfl rfl) ?_))
  refine run_bind (run_declarators readable nonempty (by omega)) ?_
  exact run_bind (run_expect rfl _) rfl

theorem function
    {name : String}
    {parameters : List Parameter}
    {body : List Stmt}
    (defaults : ∀ parameter ∈ parameters, parameter.Readable)
    (readable : ∀ stmt ∈ body, stmt.Readable) :
    (Stmt.function line name parameters body).Readable := by
  refine of_closed rfl rfl rfl fun line depth rest enough noElse => ?_
  simp only [List.length_append, List.length_cons, List.length_nil] at enough
  simp only [spelledOn_append, spelledOn_cons, spelledOn_nil, List.append_assoc,
    List.cons_append, List.nil_append]
  obtain ⟨below, rfl⟩ : ∃ below, depth = below + 1 := ⟨depth - 1, by omega⟩
  refine run_bind rfl (run_bind rfl ?_)
  refine run_bind (run_takesKeyword_other rfl) (run_bind (run_takesKeyword_next rfl) ?_)
  refine run_bind (run_name rfl _) (run_bind (run_expect rfl _) ?_)
  refine run_bind (run_parameters defaults (by omega)) (run_bind (run_expect rfl _) ?_)
  exact run_bind (run_block readable (by omega)) rfl

theorem whileLoop
    {test : Expr}
    {body : Stmt}
    (tested : test.Readable)
    (repeated : body.Readable) :
    (Stmt.whileLoop test body).Readable := by
  refine of_closed rfl rfl rfl fun line depth rest enough noElse => ?_
  simp only [spellCondition, List.cons_append, List.length_cons, List.length_append] at enough
  simp only [spelledOn_append, List.append_assoc]
  refine run_bind rfl (run_bind rfl (run_bind (run_skip rfl rfl) ?_))
  refine run_bind (run_condition tested (by omega)) ?_
  exact run_bind (repeated.reads line depth rest (by omega) noElse) rfl

theorem doLoop
    {test : Expr}
    {body : Stmt}
    (repeated : body.Readable)
    (tested : test.Readable) :
    (Stmt.doLoop body test).Readable := by
  refine of_closed rfl rfl rfl fun line depth rest enough noElse => ?_
  simp only [spellCondition, List.cons_append, List.length_cons, List.length_append] at enough
  simp only [spelledOn_append, spelledOn_cons, spelledOn_nil, List.append_assoc,
    List.cons_append, List.nil_append]
  refine run_bind rfl (run_bind rfl (run_bind (run_skip rfl rfl) ?_))
  refine run_bind (repeated.reads line depth _ (by omega) fun _ => rfl) ?_
  refine run_bind (run_takesKeyword_next rfl) ?_
  refine run_bind (run_condition tested (by omega)) ?_
  exact run_bind (run_expect rfl _) rfl

theorem switch
    {discriminant : Expr}
    {cases : List SwitchCase}
    (tested : discriminant.Readable)
    (readable : ∀ case ∈ cases, case.Readable) :
    (Stmt.switch discriminant cases).Readable := by
  refine of_closed rfl rfl rfl fun line depth rest enough noElse => ?_
  simp only [spellCondition, List.cons_append, List.length_cons, List.length_append] at enough
  simp only [spelledOn_append, spelledOn_cons, spelledOn_nil, List.append_assoc,
    List.cons_append, List.nil_append]
  refine run_bind rfl (run_bind rfl (run_bind (run_skip rfl rfl) ?_))
  refine run_bind (run_condition tested (by omega)) (run_bind (run_expect rfl _) ?_)
  exact run_bind (run_switchCases readable (by omega)) rfl

theorem forLoop
    {init : ForInit}
    {test : Option Expr}
    {steps : List Expr}
    {body : Stmt}
    (started : init.Readable)
    (tested : ∀ expr ∈ test, expr.Readable)
    (stepped : ∀ expr ∈ steps, expr.Readable)
    (repeated : body.Readable) :
    (Stmt.forLoop init test steps body).Readable := by
  refine of_closed rfl rfl rfl fun line depth rest enough noElse => ?_
  simp only [List.length_cons, List.length_append] at enough
  simp only [spelledOn_append, spelledOn_cons, List.append_assoc, List.cons_append]
  refine run_bind rfl (run_bind rfl (run_bind (run_skip rfl rfl) ?_))
  refine run_bind (run_expect rfl _) (run_bind (run_forInit started (by omega)) ?_)
  refine run_bind (run_expect rfl _) (run_bind (run_unlessNext tested (by omega)) ?_)
  refine run_bind (run_expect rfl _) (run_bind (run_forSteps stepped (by omega)) ?_)
  refine run_bind (run_expect rfl _) ?_
  exact run_bind (repeated.reads line depth rest (by omega) noElse) rfl

/-- A branch is read back if an `else` stands behind a closed branch only. -/
theorem branch
    {test : Expr}
    {whenTrue : Stmt}
    {whenFalse : Option Stmt}
    (tested : test.Readable)
    (first : whenTrue.Readable)
    (second : ∀ stmt ∈ whenFalse, stmt.Readable ∧ whenTrue.isOpen = false) :
    (Stmt.branch test whenTrue whenFalse).Readable := by
  refine of_closed rfl rfl rfl fun line depth rest enough noElse => ?_
  simp only [spellCondition, List.cons_append, List.length_cons, List.length_append] at enough
  simp only [spelledOn_append, List.append_assoc]
  refine run_bind rfl (run_bind rfl (run_bind (run_skip rfl rfl) ?_))
  refine run_bind (run_condition tested (by omega)) ?_
  cases whenFalse with
  | none =>
      refine run_bind (first.reads line depth _ (by omega) fun _ => noElse rfl) ?_
      exact run_bind (run_takesKeyword_other (noElse rfl)) rfl
  | some stmt =>
      obtain ⟨other, closed⟩ := second stmt rfl
      simp only [Stmt.spellElse, List.length_cons] at enough
      refine run_bind (first.reads line depth _ (by omega) fun isOpen => ?_) ?_
      · exact (Bool.eq_false_iff.mp closed isOpen).elim
      · refine run_bind (run_takesKeyword_next rfl) ?_
        exact run_bind (other.reads line depth rest (by omega) noElse) rfl

theorem expr
    {value : Expr}
    (readable : value.Readable) :
    (Stmt.expr value).Readable := by
  obtain ⟨kind, others, spelled, isStart⟩ := readable.starts
  have whole : (Stmt.expr value).spell = kind :: (others ++ [.punct .semicolon]) := by
    simp [Stmt.spell, spelled]
  obtain ⟨goesOn, notElse⟩ := endsCase_of_startsOperand isStart
  refine of_closed whole goesOn notElse fun line depth rest enough noElse => ?_
  simp only [List.length_append, List.length_cons, List.length_nil] at enough
  have read := readable.readsWhole_spell line depth (⟨.punct .semicolon, line, [], []⟩ :: rest)
    (by simp only [spelled, List.length_cons]; omega) (.of_mark (by simp) 0)
  simp only [spelled, spelledOn_cons, List.cons_append] at read
  simp only [spelledOn_append, spelledOn_cons, spelledOn_nil, List.append_assoc,
    List.cons_append, List.nil_append]
  exact run_statement_of_startsOperand isStart
    (run_bind read (run_bind (run_expect rfl _) rfl))

end Stmt.Readable

end LedSketch.Script
