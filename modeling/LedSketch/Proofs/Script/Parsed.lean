import LedSketch.Proofs.Script.Running

namespace LedSketch.Script

/-!
# What the parser builds

A property of expressions and one of statements hold of all that is parsed if they are
closed under what the parser builds.  The tokens are on known lines all along, and an error
is on one of them.
-/

variable {known : Nat → Prop}

/-- Tokens on known lines, with the end of the input among them. -/
structure Supplied
    (known : Nat → Prop)
    (tokens : List Token) :
    Prop where
  lines : ∀ token ∈ tokens, known token.line
  ends : ∃ token ∈ tokens, token.kind = .endOfInput

namespace Supplied

variable {tokens : List Token}

/-- The line of the next token is known. -/
theorem lineOf (supplied : Supplied known tokens) : known (lineOf tokens) := by
  cases tokens with
  | nil =>
      obtain ⟨token, member, isEnd⟩ := supplied.ends
      contradiction
  | cons token rest => exact supplied.lines token List.mem_cons_self

/-- The end of the input is still ahead after a token of another kind. -/
theorem tail
    {token : Token}
    (supplied : Supplied known (token :: tokens))
    (notEnd : token.kind ≠ .endOfInput) :
    Supplied known tokens where
  lines other member := supplied.lines other (List.mem_cons_of_mem _ member)
  ends := by
    obtain ⟨other, member, isEnd⟩ := supplied.ends
    rcases List.mem_cons.mp member with rfl | inRest
    · exact (notEnd isEnd).elim
    · exact ⟨other, inRest, isEnd⟩

/-- The tokens behind the next are supplied. -/
theorem afterNext (supplied : Supplied known tokens) :
    Supplied known (afterNext tokens) := by
  cases tokens with
  | nil => exact supplied
  | cons token rest =>
      unfold Script.afterNext
      dsimp only
      split
      · exact supplied
      · next notEnd => exact supplied.tail notEnd

/-- A token of a certain kind can be dropped if it is not the end of the input. -/
theorem drop_one
    (supplied : Supplied known tokens)
    (notEnd : kindOf tokens ≠ .endOfInput) :
    Supplied known (tokens.drop 1) := by
  cases tokens with
  | nil => exact supplied
  | cons token rest => exact supplied.tail notEnd

/-- The tokens behind some names are supplied. -/
theorem splitNames (supplied : Supplied known tokens) :
    Supplied known (splitNames tokens).2 := by
  induction tokens with
  | nil => exact supplied
  | cons token rest inductionHypothesis =>
      unfold Script.splitNames
      split
      · next word isName =>
          have notEnd : token.kind ≠ .endOfInput := by
            rw [isName]
            exact TokenKind.noConfusion
          exact inductionHypothesis (supplied.tail notEnd)
      · exact supplied

/-- A mark is not the end of the input. -/
theorem kindOf_ne_of_isPunct
    {mark : Punct}
    (isMark : (kindOf tokens).isPunct mark = true) :
    kindOf tokens ≠ .endOfInput := by
  intro isEnd
  rw [isEnd] at isMark
  contradiction

/-- The tokens behind a cast are supplied. -/
theorem castAhead?
    {kind : CastKind}
    {rest : List Token}
    (supplied : Supplied known tokens)
    (ahead : castAhead? tokens = some (kind, rest)) :
    Supplied known rest := by
  unfold Script.castAhead? at ahead
  split at ahead
  · next opens =>
      dsimp only at ahead
      split at ahead
      · next closes =>
          have closing := (Bool.and_eq_true_iff.mp closes).1
          obtain ⟨found, isKind, same⟩ := Option.map_eq_some_iff.mp ahead
          cases same
          exact (supplied.drop_one (kindOf_ne_of_isPunct opens)).splitNames.drop_one
            (kindOf_ne_of_isPunct closing)
      · contradiction
  · contradiction

end Supplied

namespace Parser

variable {α β : Type}

/--
A parser of good results: from tokens on known lines it leaves tokens on known lines, and
it fails on a known line.
-/
def Keeps
    (known : Nat → Prop)
    (parser : Parser α)
    (good : α → Prop) :
    Prop :=
  ∀ tokens, Supplied known tokens →
    match parser.run tokens with
    | .ok (result, rest) => good result ∧ Supplied known rest
    | .error error => known error.line

namespace Keeps

/-- A result that is good keeps the tokens as they are. -/
theorem pure
    {result : α}
    {good : α → Prop}
    (isGood : good result) :
    Keeps known (Pure.pure result) good :=
  fun _ supplied => ⟨isGood, supplied⟩

/-- A parser that goes on with another keeps what both keep. -/
theorem bind
    {parser : Parser α}
    {next : α → Parser β}
    {mid : α → Prop}
    {good : β → Prop}
    (first : Keeps known parser mid)
    (later : ∀ result, mid result → Keeps known (next result) good) :
    Keeps known (parser >>= next) good := by
  intro tokens supplied
  have before := first tokens supplied
  rw [StateT.run_bind]
  cases ran : parser.run tokens with
  | error error =>
      rw [ran] at before
      exact before
  | ok outcome =>
      obtain ⟨result, rest⟩ := outcome
      rw [ran] at before
      exact later result before.1 rest before.2

/-- A parser may fail on a known line. -/
theorem fail
    {line : Nat}
    {good : α → Prop}
    (here : known line)
    (cause : ParseCause) :
    Keeps known (Parser.fail line cause) good :=
  fun _ _ => here

theorem get : Keeps known get (Supplied known) :=
  fun _ supplied => ⟨supplied, supplied⟩

theorem set
    {rest : List Token}
    (supplied : Supplied known rest) :
    Keeps known (MonadStateOf.set rest : Parser PUnit) fun _ => True :=
  fun _ _ => ⟨trivial, supplied⟩

theorem peek : Keeps known peek fun _ => True :=
  fun _ supplied => ⟨trivial, supplied⟩

theorem line : Keeps known line known :=
  fun _ supplied => ⟨supplied.lineOf, supplied⟩

theorem skip : Keeps known skip fun _ => True :=
  fun _ supplied => ⟨trivial, supplied.afterNext⟩

/-- An unexpected token is reported on its own line. -/
theorem unexpected
    {good : α → Prop}
    (what : String) :
    Keeps known (Parser.unexpected what) good :=
  line.bind fun _ here => peek.bind fun _ _ => .fail here _

theorem tooDeep {good : α → Prop} : Keeps known tooDeep good :=
  line.bind fun _ here => .fail here _

/-- A mark that is taken leaves supplied tokens. -/
theorem takes (mark : Punct) : Keeps known (Parser.takes mark) fun _ => True := by
  refine peek.bind fun kind _ => ?_
  split
  · exact skip.bind fun _ _ => .pure trivial
  · exact .pure trivial

theorem takesKeyword (word : Keyword) :
    Keeps known (Parser.takesKeyword word) fun _ => True := by
  refine peek.bind fun kind _ => ?_
  split
  · exact skip.bind fun _ _ => .pure trivial
  · exact .pure trivial

/-- A mark that is expected leaves supplied tokens, or is missed on a known line. -/
theorem expect
    (mark : Punct)
    (what : String) :
    Keeps known (Parser.expect mark what) fun _ => True := by
  refine (takes mark).bind fun taken _ => ?_
  split
  · exact .pure trivial
  · exact .unexpected what

/-- A name that is expected leaves supplied tokens, or is missed on a known line. -/
theorem name (what : String) : Keeps known (Parser.name what) fun _ => True := by
  refine peek.bind fun kind _ => ?_
  split
  · exact skip.bind fun _ _ => .pure trivial
  · exact .unexpected what

end Keeps

end Parser

/--
A property of expressions that what the parser builds has, if its parts have it and it is on
a known line.
-/
structure Expr.Closed
    (known : Nat → Prop)
    (good : Expr → Prop) :
    Prop where
  line : ∀ {expr}, good expr → known expr.line
  int : ∀ {line value}, known line → good (.int line value)
  float : ∀ {line value}, known line → good (.float line value)
  text : ∀ {line value}, known line → good (.text line value)
  bool : ∀ {line value}, known line → good (.bool line value)
  undefined : ∀ {line}, known line → good (.undefined line)
  name : ∀ {line word}, known line → good (.name line word)
  array :
    ∀ {line items}, known line → (∀ item ∈ items, good item) → good (.array line items)
  unary :
    ∀ {line op operand}, known line → good operand → good (.unary line op operand)
  apply :
    ∀ {op : Operator} {left right}, good left → good right → good (op.apply left right)
  conditional :
    ∀ {test whenTrue whenFalse}, good test → good whenTrue → good whenFalse →
      good (.conditional test.line test whenTrue whenFalse)
  assign :
    ∀ {kind op target value}, assignment? kind = some op → target.isTarget = true →
      good target → good value → good (.assign target.line op target value)
  update :
    ∀ {line step fixity target}, known line → good target →
      good (.update line step fixity target)
  cast :
    ∀ {line kind operand}, known line → good operand → good (.cast line kind operand)
  await : ∀ {line operand}, known line → good operand → good (.await line operand)
  call :
    ∀ {line callee arguments}, known line → good callee →
      (∀ argument ∈ arguments, good argument) → good (.call line callee arguments)
  member :
    ∀ {line object word}, known line → good object → good (.member line object word)
  index :
    ∀ {line object position}, known line → good object → good position →
      good (.index line object position)

/-- The first clause of a counting loop with a property of its expressions. -/
def ForInit.Holds
    (known : Nat → Prop)
    (good : Expr → Prop) :
    ForInit → Prop
  | .nothing => True
  | .declare line declarators =>
      known line ∧ declarators ≠ [] ∧
        ∀ declarator ∈ declarators, ∀ value ∈ declarator.init, good value
  | .expr value => good value

/--
A property of statements that what the parser builds has, if its parts have it and it is on
a known line.
-/
structure Stmt.Closed
    (known : Nat → Prop)
    (goodExpr : Expr → Prop)
    (good : Stmt → Prop) :
    Prop where
  declare :
    ∀ {line declarators}, known line → declarators ≠ [] →
      (∀ declarator ∈ declarators, ∀ value ∈ declarator.init, goodExpr value) →
        good (.declare line declarators)
  function :
    ∀ {line name parameters body}, known line →
      (∀ parameter ∈ parameters, ∀ value ∈ parameter.default, goodExpr value) →
        (∀ stmt ∈ body, good stmt) → good (.function line name parameters body)
  expr : ∀ {value}, goodExpr value → good (.expr value)
  block : ∀ {body}, (∀ stmt ∈ body, good stmt) → good (.block body)
  branch :
    ∀ {test whenTrue whenFalse}, goodExpr test → good whenTrue →
      (∀ stmt ∈ whenFalse, good stmt ∧ whenTrue.isOpen = false) →
        good (.branch test whenTrue whenFalse)
  whileLoop : ∀ {test body}, goodExpr test → good body → good (.whileLoop test body)
  doLoop : ∀ {body test}, good body → goodExpr test → good (.doLoop body test)
  forLoop :
    ∀ {init test steps body}, init.Holds known goodExpr →
      (∀ expr ∈ test, goodExpr expr) → (∀ expr ∈ steps, goodExpr expr) → good body →
        good (.forLoop init test steps body)
  switch :
    ∀ {discriminant cases}, goodExpr discriminant →
      (∀ case ∈ cases,
        (∀ expr ∈ case.test, goodExpr expr) ∧ ∀ stmt ∈ case.body, good stmt) →
          good (.switch discriminant cases)
  returns :
    ∀ {line value}, known line → (∀ expr ∈ value, goodExpr expr) →
      good (.returns line value)
  breaks : ∀ {line}, known line → good (.breaks line)
  continues : ∀ {line}, known line → good (.continues line)
  empty : good .empty

namespace Parser

variable {good : Expr → Prop}

/-- The parsers of expressions make expressions with a property that is closed. -/
structure ExpressionsKeep
    (known : Nat → Prop)
    (good : Expr → Prop)
    (depth : Nat) :
    Prop where
  closed : Expr.Closed known good
  expression : Keeps known (expression depth) good
  conditional : Keeps known (conditional depth) good
  operators : ∀ level, Keeps known (operators depth level) good
  moreOperators :
    ∀ level left, good left → Keeps known (moreOperators depth level left) good
  unary : Keeps known (unary depth) good
  suffixes : ∀ operand, good operand → Keeps known (suffixes depth operand) good
  expressions :
    ∀ close,
      Keeps known (expressions depth close) fun items => ∀ item ∈ items, good item
  primary : Keeps known (primary depth) good

namespace ExpressionsKeep

variable {depth : Nat}

/-- At no depth, every expression is too deep. -/
theorem zero (closed : Expr.Closed known good) : ExpressionsKeep known good 0 where
  closed := closed
  expression := .tooDeep
  conditional := .tooDeep
  operators _ := .tooDeep
  moreOperators _ _ _ := .tooDeep
  unary := .tooDeep
  suffixes _ _ := .tooDeep
  expressions _ := .tooDeep
  primary := .tooDeep

/-- An assignment is made of what is parsed one level deeper. -/
theorem expression_succ (keep : ExpressionsKeep known good depth) :
    Keeps known (Parser.expression (depth + 1)) good := by
  refine keep.conditional.bind fun target first => ?_
  refine Keeps.peek.bind fun kind _ => ?_
  split
  · exact .pure first
  · next op isMark =>
      split
      · next isTarget =>
          exact Keeps.skip.bind fun _ _ => keep.expression.bind fun value second =>
            .pure (keep.closed.assign isMark isTarget first second)
      · exact .fail (keep.closed.line first) _

/-- A conditional is made of what is parsed one level deeper. -/
theorem conditional_succ (keep : ExpressionsKeep known good depth) :
    Keeps known (Parser.conditional (depth + 1)) good := by
  refine (keep.operators 0).bind fun test tested => ?_
  refine (Keeps.takes _).bind fun taken _ => ?_
  split
  · exact keep.expression.bind fun whenTrue first =>
      (Keeps.expect _ _).bind fun _ _ => keep.expression.bind fun whenFalse second =>
        .pure (keep.closed.conditional tested first second)
  · exact .pure tested

/-- Operators of a level are made of operands that are parsed one level deeper. -/
theorem operators_succ
    (keep : ExpressionsKeep known good depth)
    (level : Nat) :
    Keeps known (Parser.operators (depth + 1) level) good := by
  unfold Parser.operators
  split
  · exact (keep.operators (level + 1)).bind fun left first =>
      keep.moreOperators level left first
  · exact keep.unary

theorem moreOperators_succ
    {left : Expr}
    (keep : ExpressionsKeep known good depth)
    (level : Nat)
    (first : good left) :
    Keeps known (Parser.moreOperators (depth + 1) level left) good := by
  refine Keeps.peek.bind fun kind _ => ?_
  split
  · exact .pure first
  · next op _ =>
      exact Keeps.skip.bind fun _ _ => (keep.operators (level + 1)).bind fun right second =>
        keep.moreOperators level _ (keep.closed.apply first second)

theorem unary_succ (keep : ExpressionsKeep known good depth) :
    Keeps known (Parser.unary (depth + 1)) good := by
  refine Keeps.line.bind fun line here => Keeps.peek.bind fun kind _ => ?_
  split
  · exact Keeps.skip.bind fun _ _ => keep.unary.bind fun operand part =>
      .pure (keep.closed.unary here part)
  · refine Keeps.peek.bind fun kind _ => ?_
    split
    · exact Keeps.skip.bind fun _ _ => keep.unary.bind fun operand part =>
        .pure (keep.closed.update here part)
    · refine (Keeps.takesKeyword _).bind fun taken _ => ?_
      split
      · exact keep.unary.bind fun operand part => .pure (keep.closed.await here part)
      · refine Keeps.get.bind fun tokens supplied => ?_
        split
        · next ahead =>
            exact (Keeps.set (supplied.castAhead? ahead)).bind fun _ _ =>
              keep.unary.bind fun operand part => .pure (keep.closed.cast here part)
        · exact keep.primary.bind fun operand part => keep.suffixes operand part

theorem suffixes_succ
    {operand : Expr}
    (keep : ExpressionsKeep known good depth)
    (part : good operand) :
    Keeps known (Parser.suffixes (depth + 1) operand) good := by
  refine Keeps.line.bind fun line here => (Keeps.takes _).bind fun taken _ => ?_
  split
  · exact (keep.expressions _).bind fun values parts =>
      keep.suffixes _ (keep.closed.call here part parts)
  · refine (Keeps.takes _).bind fun taken _ => ?_
    split
    · exact (Keeps.name _).bind fun member _ => keep.suffixes _ (keep.closed.member here part)
    · refine (Keeps.takes _).bind fun taken _ => ?_
      split
      · exact keep.expression.bind fun position second =>
          (Keeps.expect _ _).bind fun _ _ => keep.suffixes _ (keep.closed.index here part second)
      · refine Keeps.peek.bind fun kind _ => ?_
        split
        · exact Keeps.skip.bind fun _ _ => keep.suffixes _ (keep.closed.update here part)
        · exact .pure part

/-- A list is made of items that are parsed one level deeper. -/
theorem expressions_succ
    (keep : ExpressionsKeep known good depth)
    (close : Punct) :
    Keeps known (Parser.expressions (depth + 1) close) fun items =>
      ∀ item ∈ items, good item := by
  refine (Keeps.takes _).bind fun taken _ => ?_
  split
  · exact .pure (by simp)
  · refine keep.expression.bind fun item first => (Keeps.takes _).bind fun taken _ => ?_
    split
    · exact (keep.expressions close).bind fun others parts =>
        .pure (List.forall_mem_cons.mpr ⟨first, parts⟩)
    · exact (Keeps.expect _ _).bind fun _ _ => .pure (List.forall_mem_singleton.mpr first)

/-- What is in parentheses or brackets is parsed one level deeper. -/
theorem primary_succ (keep : ExpressionsKeep known good depth) :
    Keeps known (Parser.primary (depth + 1)) good := by
  refine Keeps.line.bind fun line here => Keeps.peek.bind fun kind _ =>
    Keeps.skip.bind fun _ _ => ?_
  split
  · exact .pure (keep.closed.int here)
  · exact .pure (keep.closed.float here)
  · exact .pure (keep.closed.text here)
  · exact .pure (keep.closed.name here)
  · exact .pure (keep.closed.bool here)
  · exact .pure (keep.closed.bool here)
  · exact .pure (keep.closed.undefined here)
  · exact .pure (keep.closed.undefined here)
  · exact keep.expression.bind fun inner part =>
      (Keeps.expect _ _).bind fun _ _ => .pure part
  · exact (keep.expressions _).bind fun items parts => .pure (keep.closed.array here parts)
  · exact .fail here _

end ExpressionsKeep

/-- What is closed under the forms of expressions holds of all that are parsed. -/
theorem expressionsKeep
    (closed : Expr.Closed known good)
    (depth : Nat) :
    ExpressionsKeep known good depth := by
  -- Each parser calls others of the depth below only, so all of them are done at once.
  induction depth with
  | zero => exact .zero closed
  | succ depth keep =>
      exact {
        closed := closed
        expression := keep.expression_succ
        conditional := keep.conditional_succ
        operators := keep.operators_succ
        moreOperators := fun level _ first => keep.moreOperators_succ level first
        unary := keep.unary_succ
        suffixes := fun _ part => keep.suffixes_succ part
        expressions := keep.expressions_succ
        primary := keep.primary_succ }

namespace Keeps

theorem optionalInit
    (closed : Expr.Closed known good)
    (depth : Nat) :
    Keeps known (optionalInit depth) fun init => ∀ value ∈ init, good value := by
  refine (takes _).bind fun taken _ => ?_
  split
  · exact (expressionsKeep closed depth).expression.bind fun value within =>
      .pure (by simpa using within)
  · exact .pure (by simp)

/-- The condition of a statement is an expression in parentheses. -/
theorem condition
    (closed : Expr.Closed known good)
    (depth : Nat) :
    Keeps known (condition depth) good :=
  (expect _ _).bind fun _ _ => (expressionsKeep closed depth).expression.bind fun _ within =>
    (expect _ _).bind fun _ _ => .pure within

/-- A declaration has a declarator at least, and the initial values are parsed expressions. -/
theorem declarators
    (closed : Expr.Closed known good)
    (depth : Nat) :
    Keeps known (declarators depth) fun declared =>
      declared ≠ [] ∧ ∀ declarator ∈ declared, ∀ value ∈ declarator.init, good value := by
  induction depth with
  | zero => exact .tooDeep
  | succ depth inductionHypothesis =>
      refine (name _).bind fun variableName _ =>
        (optionalInit closed depth).bind fun init within => (takes _).bind fun taken _ => ?_
      split
      · exact inductionHypothesis.bind fun others parts =>
          .pure ⟨List.cons_ne_nil _ _, List.forall_mem_cons.mpr ⟨within, parts.2⟩⟩
      · exact .pure ⟨List.cons_ne_nil _ _, List.forall_mem_singleton.mpr within⟩

/-- The defaults of parameters are parsed expressions. -/
theorem parameters
    (closed : Expr.Closed known good)
    (depth : Nat) :
    Keeps known (parameters depth) fun declared =>
      ∀ parameter ∈ declared, ∀ value ∈ parameter.default, good value := by
  induction depth with
  | zero => exact .tooDeep
  | succ depth inductionHypothesis =>
      refine (takes _).bind fun taken _ => ?_
      split
      · exact .pure (by simp)
      · refine (name _).bind fun parameterName _ =>
          (optionalInit closed depth).bind fun default within => (takes _).bind fun taken _ => ?_
        split
        · exact inductionHypothesis.bind fun others parts =>
            .pure (List.forall_mem_cons.mpr ⟨within, parts⟩)
        · exact (expect _ _).bind fun _ _ => .pure (List.forall_mem_singleton.mpr within)

/-- The steps of a loop are parsed expressions. -/
theorem steps
    (closed : Expr.Closed known good)
    (depth : Nat) :
    Keeps known (steps depth) fun stepped => ∀ expr ∈ stepped, good expr := by
  induction depth with
  | zero => exact .tooDeep
  | succ depth inductionHypothesis =>
      refine (expressionsKeep closed depth).expression.bind fun first within =>
        (takes _).bind fun taken _ => ?_
      split
      · exact inductionHypothesis.bind fun others parts =>
          .pure (List.forall_mem_cons.mpr ⟨within, parts⟩)
      · exact .pure (List.forall_mem_singleton.mpr within)

/-- A loop begins with a declaration or an expression that is parsed. -/
theorem forInit
    (closed : Expr.Closed known good)
    (depth : Nat) :
    Keeps known (forInit depth) (ForInit.Holds known good) := by
  refine peek.bind fun kind _ => ?_
  split
  · exact .pure trivial
  · split
    · exact line.bind fun line here => skip.bind fun _ _ =>
        (declarators closed depth).bind fun _ parts => .pure ⟨here, parts⟩
    · exact (expressionsKeep closed depth).expression.bind fun value within => .pure within

theorem unlessNext
    (closed : Expr.Closed known good)
    (mark : Punct)
    (depth : Nat) :
    Keeps known (unlessNext mark depth) fun found =>
      ∀ value ∈ found, good value := by
  refine peek.bind fun kind _ => ?_
  split
  · exact .pure (by simp)
  · exact (expressionsKeep closed depth).expression.bind fun value within =>
      .pure (by simpa using within)

theorem forSteps
    (closed : Expr.Closed known good)
    (depth : Nat) :
    Keeps known (forSteps depth) fun stepped => ∀ expr ∈ stepped, good expr := by
  refine peek.bind fun kind _ => ?_
  split
  · exact .pure (by simp)
  · exact steps closed depth

/-- The test of a case is a parsed expression, and the default has none. -/
theorem caseTest
    (closed : Expr.Closed known good)
    (depth : Nat) :
    Keeps known (caseTest depth) fun found => ∀ value ∈ found, good value := by
  refine (takesKeyword _).bind fun taken _ => ?_
  split
  · exact (expressionsKeep closed depth).expression.bind fun value within =>
      .pure (by simpa using within)
  · refine (takesKeyword _).bind fun taken _ => ?_
    split
    · exact .pure (by simp)
    · exact .unexpected _

end Keeps

/-- A parser that leaves no `else` behind a statement that would have taken it. -/
def TakesElse (parser : Parser Stmt) : Prop :=
  ∀ tokens stmt rest,
    parser.run tokens = .ok (stmt, rest) →
    stmt.isOpen = true →
    (kindOf rest).isKeyword .elseWord = false

namespace TakesElse

theorem fail
    (line : Nat)
    (cause : ParseCause) :
    TakesElse (Parser.fail line cause) := by
  intro tokens stmt rest ran
  contradiction

theorem pure
    {stmt : Stmt}
    (closed : stmt.isOpen = false) :
    TakesElse (Pure.pure stmt) := by
  intro tokens other rest ran isOpen
  cases ran
  exact (Bool.eq_false_iff.mp closed isOpen).elim

theorem bind
    {parser : Parser α}
    {next : α → Parser Stmt}
    (later : ∀ result, TakesElse (next result)) :
    TakesElse (parser >>= next) := by
  intro tokens stmt rest ran
  obtain ⟨result, between, first, second⟩ := run_bind_eq_ok ran
  exact later result between stmt rest second

/-- A statement around another at its end takes an `else` where the inner one does. -/
theorem around
    {parser : Parser Stmt}
    {outer : Stmt → Stmt}
    (takes : TakesElse parser)
    (same : ∀ stmt, (outer stmt).isOpen = stmt.isOpen) :
    TakesElse (parser >>= fun stmt => Pure.pure (outer stmt)) := by
  intro tokens stmt rest ran isOpen
  obtain ⟨inner, between, first, second⟩ := run_bind_eq_ok ran
  cases second
  exact takes tokens inner rest first (same inner ▸ isOpen)

theorem tooDeep : TakesElse tooDeep :=
  bind fun _ => fail _ _

theorem unexpected (what : String) : TakesElse (Parser.unexpected what) :=
  bind fun _ => bind fun _ => fail _ _

theorem declaration (line depth : Nat) : TakesElse (declaration line depth) :=
  bind fun _ => bind fun _ => bind fun _ => pure rfl

theorem function (line depth : Nat) : TakesElse (function line depth) := by
  cases depth with
  | zero => exact tooDeep
  | succ depth =>
      refine bind fun _ => bind fun taken => ?_
      split
      · exact bind fun _ => bind fun _ => bind fun _ => bind fun _ => bind fun _ => pure rfl
      · exact unexpected _

/-- A branch without `else` is left in front of a token that is no `else`. -/
theorem branch
    {test : Expr}
    {whenTrue : Stmt}
    {parser : Parser Stmt}
    (takes : TakesElse parser) :
    TakesElse (do
      if ← takesKeyword .elseWord then
        return .branch test whenTrue (some (← parser))
      else
        return .branch test whenTrue none) := by
  intro tokens stmt rest ran isOpen
  obtain ⟨taken, between, first, second⟩ := run_bind_eq_ok ran
  by_cases isElse : (kindOf tokens).isKeyword .elseWord = true
  · obtain ⟨onward, isTaken⟩ := run_takesKeyword_of_isKeyword isElse
    cases first.symm.trans isTaken
    exact @around _ (fun other => .branch test whenTrue (some other)) takes (fun _ => rfl)
      between stmt rest second isOpen
  · have notElse := Bool.eq_false_iff.mpr isElse
    cases first.symm.trans (run_takesKeyword_other notElse)
    cases second
    exact notElse

/-- Behind a statement with an open end there is no `else` left. -/
theorem statement (depth : Nat) : TakesElse (statement depth) := by
  induction depth with
  | zero => exact tooDeep
  | succ depth takes =>
      refine bind fun line => bind fun kind => ?_
      split
      · exact declaration line depth
      · exact declaration line depth
      · exact declaration line depth
      · exact function line depth
      · exact function line depth
      · exact bind fun _ => bind fun _ => pure rfl
      · exact bind fun _ => pure rfl
      · exact bind fun _ => bind fun _ => bind fun _ => takes.branch
      · exact bind fun _ => bind fun _ => takes.around fun _ => rfl
      · refine bind fun _ => bind fun _ => bind fun taken => ?_
        split
        · exact bind fun _ => bind fun _ => pure rfl
        · exact unexpected _
      · exact bind fun _ => bind fun _ => bind fun _ => bind fun _ => bind fun _ =>
          bind fun _ => bind fun _ => bind fun _ => takes.around fun _ => rfl
      · exact bind fun _ => bind fun _ => bind fun _ => bind fun _ => pure rfl
      · exact bind fun _ => bind fun _ => bind fun _ => pure rfl
      · exact bind fun _ => bind fun _ => pure rfl
      · exact bind fun _ => bind fun _ => pure rfl
      · exact bind fun _ => bind fun _ => pure rfl

end TakesElse

/-- An `else` is taken behind a statement that is closed only. -/
theorem Keeps.withElse
    {parser : Parser Stmt}
    {next : Stmt → Bool → Parser β}
    {mid : Stmt → Prop}
    {last : β → Prop}
    (keeps : Keeps known parser mid)
    (takes : TakesElse parser)
    (later :
      ∀ stmt taken,
        mid stmt → (taken = true → stmt.isOpen = false) → Keeps known (next stmt taken) last) :
    Keeps known (parser >>= fun stmt => Parser.takesKeyword .elseWord >>= next stmt) last := by
  intro tokens supplied
  have before := keeps tokens supplied
  rw [StateT.run_bind]
  cases ran : parser.run tokens with
  | error error =>
      rw [ran] at before
      exact before
  | ok outcome =>
      obtain ⟨stmt, rest⟩ := outcome
      rw [ran] at before
      by_cases isElse : (kindOf rest).isKeyword .elseWord = true
      · have closed : stmt.isOpen = false := by
          cases isOpen : stmt.isOpen with
          | false => rfl
          | true =>
              have notElse := takes tokens stmt rest ran isOpen
              exact (Bool.eq_false_iff.mp notElse isElse).elim
        exact (Keeps.takesKeyword _).bind
          (fun taken _ => later stmt taken before.1 fun _ => closed) rest before.2
      · have notElse := Bool.eq_false_iff.mpr isElse
        have onward := later stmt false before.1 (by simp) rest before.2
        have same : (Parser.takesKeyword .elseWord >>= next stmt).run rest =
            (next stmt false).run rest := run_bind (run_takesKeyword_other notElse) rfl
        rw [← same] at onward
        exact onward

variable {goodStmt : Stmt → Prop}

/-- The parsers of statements make statements with a property that is closed. -/
structure StatementsKeep
    (known : Nat → Prop)
    (good : Expr → Prop)
    (goodStmt : Stmt → Prop)
    (depth : Nat) :
    Prop where
  closedExpr : Expr.Closed known good
  closed : Stmt.Closed known good goodStmt
  statement : Keeps known (statement depth) goodStmt
  function : ∀ line, known line → Keeps known (function line depth) goodStmt
  block : Keeps known (block depth) fun body => ∀ stmt ∈ body, goodStmt stmt
  switchCases :
    Keeps known (switchCases depth) fun cases =>
      ∀ case ∈ cases,
        (∀ value ∈ case.test, good value) ∧ ∀ stmt ∈ case.body, goodStmt stmt
  caseBody : Keeps known (caseBody depth) fun body => ∀ stmt ∈ body, goodStmt stmt

namespace StatementsKeep

variable {depth : Nat}

/-- At no depth, every statement is too deep. -/
theorem zero
    (closedExpr : Expr.Closed known good)
    (closed : Stmt.Closed known good goodStmt) :
    StatementsKeep known good goodStmt 0 where
  closedExpr := closedExpr
  closed := closed
  statement := .tooDeep
  function _ _ := .tooDeep
  block := .tooDeep
  switchCases := .tooDeep
  caseBody := .tooDeep

/-- A declaration is made of parsed expressions. -/
theorem declaration_succ
    {line : Nat}
    (keep : StatementsKeep known good goodStmt depth)
    (here : known line) :
    Keeps known (declaration line depth) goodStmt :=
  Keeps.skip.bind fun _ _ => (Keeps.declarators keep.closedExpr depth).bind fun _ parts =>
    (Keeps.expect _ _).bind fun _ _ => .pure (keep.closed.declare here parts.1 parts.2)

/-- A statement is made of what is parsed one level deeper. -/
theorem statement_succ (keep : StatementsKeep known good goodStmt depth) :
    Keeps known (Parser.statement (depth + 1)) goodStmt := by
  refine Keeps.line.bind fun line here => Keeps.peek.bind fun kind _ => ?_
  -- The first token tells the kind of a statement.
  split
  · exact keep.declaration_succ here
  · exact keep.declaration_succ here
  · exact keep.declaration_succ here
  · exact keep.function line here
  · exact keep.function line here
  · exact Keeps.skip.bind fun _ _ => keep.block.bind fun body parts =>
      .pure (keep.closed.block parts)
  · exact Keeps.skip.bind fun _ _ => .pure keep.closed.empty
  · refine Keeps.skip.bind fun _ _ => (Keeps.condition keep.closedExpr depth).bind
      fun _ tested => keep.statement.withElse (TakesElse.statement depth)
        fun whenTrue taken first closed => ?_
    split
    · next isTaken =>
        exact keep.statement.bind fun whenFalse second =>
          .pure (keep.closed.branch tested first (by simpa using ⟨second, closed isTaken⟩))
    · exact .pure (keep.closed.branch tested first (by simp))
  · exact Keeps.skip.bind fun _ _ => (Keeps.condition keep.closedExpr depth).bind fun test tested =>
      keep.statement.bind fun body repeated => .pure (keep.closed.whileLoop tested repeated)
  · refine Keeps.skip.bind fun _ _ => keep.statement.bind fun body repeated =>
      (Keeps.takesKeyword _).bind fun taken _ => ?_
    split
    · exact (Keeps.condition keep.closedExpr depth).bind fun test tested =>
        (Keeps.expect _ _).bind fun _ _ => .pure (keep.closed.doLoop repeated tested)
    · exact .unexpected _
  · exact Keeps.skip.bind fun _ _ => (Keeps.expect _ _).bind fun _ _ =>
      (Keeps.forInit keep.closedExpr depth).bind fun init started =>
        (Keeps.expect _ _).bind fun _ _ =>
          (Keeps.unlessNext keep.closedExpr _ depth).bind fun test tested =>
            (Keeps.expect _ _).bind fun _ _ =>
              (Keeps.forSteps keep.closedExpr depth).bind fun steps stepped =>
                (Keeps.expect _ _).bind fun _ _ => keep.statement.bind fun body repeated =>
                  .pure (keep.closed.forLoop started tested stepped repeated)
  · exact Keeps.skip.bind fun _ _ =>
      (Keeps.condition keep.closedExpr depth).bind fun discriminant tested =>
        (Keeps.expect _ _).bind fun _ _ => keep.switchCases.bind fun cases parts =>
          .pure (keep.closed.switch tested parts)
  · exact Keeps.skip.bind fun _ _ =>
      (Keeps.unlessNext keep.closedExpr _ depth).bind fun value part =>
        (Keeps.expect _ _).bind fun _ _ => .pure (keep.closed.returns here part)
  · exact Keeps.skip.bind fun _ _ =>
      (Keeps.expect _ _).bind fun _ _ => .pure (keep.closed.breaks here)
  · exact Keeps.skip.bind fun _ _ =>
      (Keeps.expect _ _).bind fun _ _ => .pure (keep.closed.continues here)
  · exact (expressionsKeep keep.closedExpr depth).expression.bind fun value within =>
      (Keeps.expect _ _).bind fun _ _ => .pure (keep.closed.expr within)

/-- The body of a function is parsed one level deeper. -/
theorem function_succ
    {line : Nat}
    (keep : StatementsKeep known good goodStmt depth)
    (here : known line) :
    Keeps known (Parser.function line (depth + 1)) goodStmt := by
  refine (Keeps.takesKeyword _).bind fun _ _ => (Keeps.takesKeyword _).bind fun taken _ => ?_
  split
  · exact (Keeps.name _).bind fun functionName _ => (Keeps.expect _ _).bind fun _ _ =>
      (Keeps.parameters keep.closedExpr depth).bind fun parameters defaults =>
        (Keeps.expect _ _).bind fun _ _ => keep.block.bind fun body parts =>
          .pure (keep.closed.function here defaults parts)
  · exact .unexpected _

/-- The statements of a block are parsed one level deeper. -/
theorem block_succ (keep : StatementsKeep known good goodStmt depth) :
    Keeps known (Parser.block (depth + 1)) fun body => ∀ stmt ∈ body, goodStmt stmt := by
  refine (Keeps.takes _).bind fun taken _ => ?_
  split
  · exact .pure (by simp)
  · refine Keeps.peek.bind fun kind _ => ?_
    split
    · exact .unexpected _
    · exact keep.statement.bind fun first within => keep.block.bind fun others parts =>
        .pure (List.forall_mem_cons.mpr ⟨within, parts⟩)

/-- Tests and bodies of cases are parsed one level deeper. -/
theorem switchCases_succ (keep : StatementsKeep known good goodStmt depth) :
    Keeps known (Parser.switchCases (depth + 1)) fun cases =>
      ∀ case ∈ cases,
        (∀ value ∈ case.test, good value) ∧ ∀ stmt ∈ case.body, goodStmt stmt := by
  refine (Keeps.takes _).bind fun taken _ => ?_
  split
  · exact .pure (by simp)
  · exact (Keeps.caseTest keep.closedExpr depth).bind fun test tested =>
      (Keeps.expect _ _).bind fun _ _ => keep.caseBody.bind fun body parts =>
        keep.switchCases.bind fun others within =>
          .pure (List.forall_mem_cons.mpr ⟨⟨tested, parts⟩, within⟩)

theorem caseBody_succ (keep : StatementsKeep known good goodStmt depth) :
    Keeps known (Parser.caseBody (depth + 1)) fun body =>
      ∀ stmt ∈ body, goodStmt stmt := by
  refine Keeps.peek.bind fun kind _ => ?_
  split
  · exact .pure (by simp)
  · exact keep.statement.bind fun first within => keep.caseBody.bind fun others parts =>
      .pure (List.forall_mem_cons.mpr ⟨within, parts⟩)

end StatementsKeep

/-- What is closed under the forms of statements holds of all that are parsed. -/
theorem statementsKeep
    (closedExpr : Expr.Closed known good)
    (closed : Stmt.Closed known good goodStmt)
    (depth : Nat) :
    StatementsKeep known good goodStmt depth := by
  induction depth with
  | zero => exact .zero closedExpr closed
  | succ depth keep =>
      exact {
        closedExpr := closedExpr
        closed := closed
        statement := keep.statement_succ
        function := fun _ here => keep.function_succ here
        block := keep.block_succ
        switchCases := keep.switchCases_succ
        caseBody := keep.caseBody_succ }

/-- What is closed under the forms of statements holds of all statements of a program. -/
theorem Keeps.program
    (closedExpr : Expr.Closed known good)
    (closed : Stmt.Closed known good goodStmt)
    (depth : Nat) :
    Keeps known (program depth) fun body => ∀ stmt ∈ body, goodStmt stmt := by
  induction depth with
  | zero => exact .tooDeep
  | succ depth inductionHypothesis =>
      refine Keeps.peek.bind fun kind _ => ?_
      split
      · exact .pure (by simp)
      · exact (statementsKeep closedExpr closed depth).statement.bind fun first within =>
          inductionHypothesis.bind fun others parts =>
            .pure (List.forall_mem_cons.mpr ⟨within, parts⟩)

end Parser

/-- What is parsed has a closed property, or parsing fails on a known line. -/
theorem parseTokens_closed
    {good : Expr → Prop}
    {goodStmt : Stmt → Prop}
    {tokens : List Token}
    (closedExpr : Expr.Closed known good)
    (closed : Stmt.Closed known good goodStmt)
    (supplied : Supplied known tokens) :
    match parseTokens tokens with
    | .ok program => ∀ stmt ∈ program.body, goodStmt stmt
    | .error error => known error.line := by
  have kept := Parser.Keeps.program closedExpr closed
    (Parser.depthPerToken * (tokens.length + 1)) tokens supplied
  unfold parseTokens
  cases ran : (Parser.program (Parser.depthPerToken * (tokens.length + 1))).run tokens with
  | ok outcome =>
      rw [ran] at kept
      exact kept.1
  | error error =>
      rw [ran] at kept
      exact kept

end LedSketch.Script
