import LedSketch.Proofs.Script.Counters

namespace LedSketch.Script

/-!
# Checking that code only counts

Whether a program declares a counter once, and otherwise only counts with it, can be
computed from its statements.
-/

/-- Whether a target may be assigned with an operator by code that only counts. -/
def Expr.mayCount
    (counter : String)
    (op : Option BinaryOp) :
    Expr → Bool
  | .name _ assigned => assigned ≠ counter || op = some .add || op = some .sub
  | _ => true

mutual

/-- Whether an expression only counts with a counter. -/
def Expr.counts (counter : String) : Expr → Bool
  | .array _ items => Expr.allCount counter items
  | .unary _ _ operand => operand.counts counter
  | .binary _ _ left right => left.counts counter && right.counts counter
  | .logical _ _ left right => left.counts counter && right.counts counter
  | .conditional _ test whenTrue whenFalse =>
      test.counts counter && whenTrue.counts counter && whenFalse.counts counter
  | .assign _ op target value =>
      target.mayCount counter op && target.counts counter && value.counts counter
  | .update _ _ _ target => target.counts counter
  | .cast _ _ operand => operand.counts counter
  | .await _ operand => operand.counts counter
  | .call _ callee arguments =>
      callee.counts counter && Expr.allCount counter arguments
  | .member _ object _ => object.counts counter
  | .index _ object position => object.counts counter && position.counts counter
  | _ => true

/-- Whether several expressions only count with a counter. -/
def Expr.allCount (counter : String) : List Expr → Bool
  | [] => true
  | expr :: rest => expr.counts counter && Expr.allCount counter rest

end

/-- Whether a variable is another one, and its initial value only counts. -/
def Declarator.counts
    (counter : String)
    (declarator : Declarator) :
    Bool :=
  declarator.name ≠ counter && declarator.init.all (Expr.counts counter)

/-- Whether a parameter is another variable, and its default value only counts. -/
def Parameter.counts
    (counter : String)
    (parameter : Parameter) :
    Bool :=
  parameter.name ≠ counter && parameter.default.all (Expr.counts counter)

/-- Whether the first clause of a counting loop only counts. -/
def ForInit.counts (counter : String) : ForInit → Bool
  | .nothing => true
  | .declare _ declarators => declarators.all (Declarator.counts counter)
  | .expr value => value.counts counter

mutual

/-- Whether a statement only counts with a counter. -/
def Stmt.counts (counter : String) : Stmt → Bool
  | .declare _ declarators => declarators.all (Declarator.counts counter)
  | .function _ name parameters body =>
      name ≠ counter && parameters.all (Parameter.counts counter) && Stmt.allCount counter body
  | .expr value => value.counts counter
  | .block body => Stmt.allCount counter body
  | .branch test whenTrue whenFalse =>
      test.counts counter && whenTrue.counts counter && Stmt.elseCounts counter whenFalse
  | .whileLoop test body => test.counts counter && body.counts counter
  | .doLoop body test => body.counts counter && test.counts counter
  | .forLoop init test steps body =>
      init.counts counter && test.all (Expr.counts counter) &&
        steps.all (Expr.counts counter) && body.counts counter
  | .switch discriminant cases =>
      discriminant.counts counter && SwitchCase.allCount counter cases
  | .returns _ value => value.all (Expr.counts counter)
  | _ => true

/-- Whether several statements only count with a counter. -/
def Stmt.allCount (counter : String) : List Stmt → Bool
  | [] => true
  | stmt :: rest => stmt.counts counter && Stmt.allCount counter rest

/-- Whether the other branch, if there is one, only counts. -/
def Stmt.elseCounts (counter : String) : Option Stmt → Bool
  | none => true
  | some stmt => stmt.counts counter

/-- Whether a case only counts. -/
def SwitchCase.counts (counter : String) : SwitchCase → Bool
  | .mk test body => test.all (Expr.counts counter) && Stmt.allCount counter body

/-- Whether several cases only count. -/
def SwitchCase.allCount (counter : String) : List SwitchCase → Bool
  | [] => true
  | case :: rest => case.counts counter && SwitchCase.allCount counter rest

end

/-- Whether one of the variables is the counter, and the others only count. -/
def Declarator.introduces (counter : String) : List Declarator → Bool
  | [] => false
  | declarator :: rest =>
      if declarator.name = counter then
        declarator.init.any (Expr.counts counter) && rest.all (Declarator.counts counter)
      else
        declarator.init.all (Expr.counts counter) && Declarator.introduces counter rest

/-- Whether one of the statements declares the counter, and the others only count. -/
def Stmt.introduces (counter : String) : List Stmt → Bool
  | [] => false
  | .declare _ declarators :: rest =>
      Declarator.introduces counter declarators && Stmt.allCount counter rest ||
        declarators.all (Declarator.counts counter) && Stmt.introduces counter rest
  | stmt :: rest => stmt.counts counter && Stmt.introduces counter rest

variable {counter : String}

/-- What the check lets count may be assigned. -/
theorem Expr.mayAssign_of_mayCount
    {op : Option BinaryOp}
    {target : Expr}
    (may : target.mayCount counter op = true) :
    target.MayAssign (.counting counter) op := by
  cases target with
  | name line assigned =>
      intro same
      have same : counter = assigned := same
      simp [mayCount, same] at may
      exact may
  | _ => exact trivial

mutual

/-- An expression that only counts is within the limits of the counter. -/
theorem Expr.within_of_counts
    {counter : String} :
    (expr : Expr) →
      expr.counts counter = true →
      expr.Within (.counting counter)
  | .int .., _ => .int trivial
  | .float .., _ => .float trivial
  | .text .., _ => .text trivial
  | .bool .., _ => .bool trivial
  | .undefined .., _ => .undefined trivial
  | .name .., _ => .name trivial
  | .array _ items, counts => .array trivial (Expr.within_of_allCount items counts)
  | .unary _ _ operand, counts => .unary trivial (Expr.within_of_counts operand counts)
  | .binary _ _ left right, counts =>
      have ⟨first, second⟩ := Bool.and_eq_true_iff.mp counts
      .binary trivial (Expr.within_of_counts left first) (Expr.within_of_counts right second)
  | .logical _ _ left right, counts =>
      have ⟨first, second⟩ := Bool.and_eq_true_iff.mp counts
      .logical trivial (Expr.within_of_counts left first) (Expr.within_of_counts right second)
  | .conditional _ test whenTrue whenFalse, counts =>
      have ⟨others, second⟩ := Bool.and_eq_true_iff.mp counts
      have ⟨tested, first⟩ := Bool.and_eq_true_iff.mp others
      .conditional trivial (Expr.within_of_counts test tested)
        (Expr.within_of_counts whenTrue first) (Expr.within_of_counts whenFalse second)
  | .assign _ _ target value, counts =>
      have ⟨others, second⟩ := Bool.and_eq_true_iff.mp counts
      have ⟨may, first⟩ := Bool.and_eq_true_iff.mp others
      .assign trivial (Expr.mayAssign_of_mayCount may) (Expr.within_of_counts target first)
        (Expr.within_of_counts value second)
  | .update _ _ _ target, counts => .update trivial (Expr.within_of_counts target counts)
  | .cast _ _ operand, counts => .cast trivial (Expr.within_of_counts operand counts)
  | .await _ operand, counts => .await trivial (Expr.within_of_counts operand counts)
  | .call _ callee arguments, counts =>
      have ⟨called, parts⟩ := Bool.and_eq_true_iff.mp counts
      .call trivial (Expr.within_of_counts callee called)
        (Expr.within_of_allCount arguments parts)
  | .member _ object _, counts => .member trivial (Expr.within_of_counts object counts)
  | .index _ object position, counts =>
      have ⟨first, second⟩ := Bool.and_eq_true_iff.mp counts
      .index trivial (Expr.within_of_counts object first)
        (Expr.within_of_counts position second)

theorem Expr.within_of_allCount
    {counter : String} :
    (exprs : List Expr) →
      Expr.allCount counter exprs = true →
      ∀ expr ∈ exprs, expr.Within (.counting counter)
  | [], _ => List.forall_mem_nil _
  | expr :: rest, counts =>
      have ⟨first, others⟩ := Bool.and_eq_true_iff.mp counts
      List.forall_mem_cons.mpr
        ⟨Expr.within_of_counts expr first, Expr.within_of_allCount rest others⟩

end

/-- What may be left out counts if it is checked. -/
theorem Expr.within_of_mem
    {optional : Option Expr}
    (counts : optional.all (Expr.counts counter) = true) :
    ∀ expr ∈ optional, expr.Within (.counting counter) := by
  intro expr member
  rw [Option.mem_def.mp member] at counts
  exact Expr.within_of_counts expr counts

theorem Expr.within_of_all
    {exprs : List Expr}
    (counts : exprs.all (Expr.counts counter) = true) :
    ∀ expr ∈ exprs, expr.Within (.counting counter) :=
  fun expr member => Expr.within_of_counts expr (List.all_eq_true.mp counts expr member)

/-- A declarator that is checked counts. -/
theorem Declarator.within_of_counts
    {declarator : Declarator}
    (counts : declarator.counts counter = true) :
    declarator.Within (.counting counter) := by
  obtain ⟨other, init⟩ := Bool.and_eq_true_iff.mp counts
  exact ⟨Ne.symm (of_decide_eq_true other), Expr.within_of_mem init⟩

theorem Declarator.within_of_all
    {declarators : List Declarator}
    (counts : declarators.all (Declarator.counts counter) = true) :
    ∀ declarator ∈ declarators, declarator.Within (.counting counter) :=
  fun declarator member =>
    Declarator.within_of_counts (List.all_eq_true.mp counts declarator member)

/-- Parameters that are checked count. -/
theorem Parameter.within_of_all
    {parameters : List Parameter}
    (counts : parameters.all (Parameter.counts counter) = true) :
    ∀ parameter ∈ parameters, parameter.Within (.counting counter) := by
  intro parameter member
  obtain ⟨other, default⟩ :=
    Bool.and_eq_true_iff.mp (List.all_eq_true.mp counts parameter member)
  exact ⟨Ne.symm (of_decide_eq_true other), Expr.within_of_mem default⟩

/-- The beginning of a loop counts if it is checked. -/
theorem ForInit.within_of_counts
    {init : ForInit}
    (counts : init.counts counter = true) :
    init.Within (.counting counter) := by
  cases init with
  | nothing => exact trivial
  | declare line declarators => exact ⟨trivial, Declarator.within_of_all counts⟩
  | expr value => exact Expr.within_of_counts value counts

mutual

/-- A statement that only counts is within the limits of the counter. -/
theorem Stmt.within_of_counts
    {counter : String} :
    (stmt : Stmt) →
      stmt.counts counter = true →
      stmt.Within (.counting counter)
  | .declare _ _, counts => .declare trivial (Declarator.within_of_all counts)
  | .function _ _ _ body, counts =>
      have ⟨others, parts⟩ := Bool.and_eq_true_iff.mp counts
      have ⟨other, defaults⟩ := Bool.and_eq_true_iff.mp others
      .function trivial (Ne.symm (of_decide_eq_true other)) (Parameter.within_of_all defaults)
        (Stmt.within_of_allCount body parts)
  | .expr value, counts => .expr (Expr.within_of_counts value counts)
  | .block body, counts => .block (Stmt.within_of_allCount body counts)
  | .branch test whenTrue whenFalse, counts =>
      have ⟨others, second⟩ := Bool.and_eq_true_iff.mp counts
      have ⟨tested, first⟩ := Bool.and_eq_true_iff.mp others
      .branch (Expr.within_of_counts test tested) (Stmt.within_of_counts whenTrue first)
        (Stmt.within_of_elseCounts whenFalse second)
  | .whileLoop test body, counts =>
      have ⟨tested, repeated⟩ := Bool.and_eq_true_iff.mp counts
      .whileLoop (Expr.within_of_counts test tested) (Stmt.within_of_counts body repeated)
  | .doLoop body test, counts =>
      have ⟨repeated, tested⟩ := Bool.and_eq_true_iff.mp counts
      .doLoop (Stmt.within_of_counts body repeated) (Expr.within_of_counts test tested)
  | .forLoop _ _ _ body, counts =>
      have ⟨others, repeated⟩ := Bool.and_eq_true_iff.mp counts
      have ⟨clauses, stepped⟩ := Bool.and_eq_true_iff.mp others
      have ⟨started, tested⟩ := Bool.and_eq_true_iff.mp clauses
      .forLoop (ForInit.within_of_counts started) (Expr.within_of_mem tested)
        (Expr.within_of_all stepped) (Stmt.within_of_counts body repeated)
  | .switch discriminant cases, counts =>
      have ⟨tested, parts⟩ := Bool.and_eq_true_iff.mp counts
      .switch (Expr.within_of_counts discriminant tested)
        (SwitchCase.within_of_allCount cases parts)
  | .returns _ _, counts => .returns trivial (Expr.within_of_mem counts)
  | .breaks _, _ => .breaks trivial
  | .continues _, _ => .continues trivial
  | .empty, _ => .empty

theorem Stmt.within_of_allCount
    {counter : String} :
    (stmts : List Stmt) →
      Stmt.allCount counter stmts = true →
      ∀ stmt ∈ stmts, stmt.Within (.counting counter)
  | [], _ => List.forall_mem_nil _
  | stmt :: rest, counts =>
      have ⟨first, others⟩ := Bool.and_eq_true_iff.mp counts
      List.forall_mem_cons.mpr
        ⟨Stmt.within_of_counts stmt first, Stmt.within_of_allCount rest others⟩

theorem Stmt.within_of_elseCounts
    {counter : String} :
    (whenFalse : Option Stmt) →
      Stmt.elseCounts counter whenFalse = true →
      ∀ stmt ∈ whenFalse, stmt.Within (.counting counter)
  | none, _ => fun _ member => nomatch member
  | some whenFalse, counts => fun _ member =>
      Option.some.inj member ▸ Stmt.within_of_counts whenFalse counts

theorem SwitchCase.within_of_counts
    {counter : String} :
    (case : SwitchCase) →
      case.counts counter = true →
      case.Within (.counting counter)
  | .mk _ body, counts =>
      have ⟨tested, parts⟩ := Bool.and_eq_true_iff.mp counts
      .mk (Expr.within_of_mem tested) (Stmt.within_of_allCount body parts)

theorem SwitchCase.within_of_allCount
    {counter : String} :
    (cases : List SwitchCase) →
      SwitchCase.allCount counter cases = true →
      ∀ case ∈ cases, case.Within (.counting counter)
  | [], _ => List.forall_mem_nil _
  | case :: rest, counts =>
      have ⟨first, others⟩ := Bool.and_eq_true_iff.mp counts
      List.forall_mem_cons.mpr
        ⟨SwitchCase.within_of_counts case first, SwitchCase.within_of_allCount rest others⟩

end

/-- A declaration that is checked introduces the counter. -/
theorem Declarator.introduce_of_check
    {declarators : List Declarator}
    (checked : Declarator.introduces counter declarators = true) :
    Declarator.Introduce counter declarators := by
  induction declarators with
  | nil => contradiction
  | cons declarator rest inductionHypothesis =>
      obtain ⟨name, init⟩ := declarator
      unfold Declarator.introduces at checked
      split at checked
      · next isCounter =>
          obtain ⟨initial, others⟩ := Bool.and_eq_true_iff.mp checked
          obtain ⟨expr, isInit, counts⟩ := (Option.any_eq_true _ _).mp initial
          obtain rfl : name = counter := isCounter
          obtain rfl : init = some expr := isInit
          exact .here (Expr.within_of_counts expr counts) (Declarator.within_of_all others)
      · next isOther =>
          obtain ⟨initial, others⟩ := Bool.and_eq_true_iff.mp checked
          exact .later ⟨Ne.symm isOther, Expr.within_of_mem initial⟩
            (inductionHypothesis others)

/-- A body that passes the check declares the counter, and otherwise only counts with it. -/
theorem Stmt.introduce_of_check
    {body : List Stmt}
    (checked : Stmt.introduces counter body = true) :
    Stmt.Introduce counter body := by
  induction body with
  | nil => contradiction
  | cons stmt rest inductionHypothesis =>
      have onward
          (later : (stmt.counts counter && Stmt.introduces counter rest) = true) :
          Stmt.Introduce counter (stmt :: rest) := by
        obtain ⟨first, others⟩ := Bool.and_eq_true_iff.mp later
        exact .later (Stmt.within_of_counts stmt first) (inductionHypothesis others)
      cases stmt with
      | declare line declarators =>
          obtain here | later := Bool.or_eq_true_iff.mp checked
          · obtain ⟨declared, others⟩ := Bool.and_eq_true_iff.mp here
            exact .here (Declarator.introduce_of_check declared)
              (Stmt.within_of_allCount rest others)
          · exact onward later
      | _ => exact onward checked

end LedSketch.Script
