import LedSketch.Script.Syntax

namespace LedSketch.Script

/-!
# Where statements stand

A statement stands in a body directly or as a part of another one.  The loops and switches
around it are those of the same body: a function that is declared in a body has a body of
its own.
-/

/-- Whether there is a loop, and whether there is a switch, around a statement. -/
structure Enclosure where
  inLoop : Bool
  inSwitch : Bool
  deriving Repr, DecidableEq

namespace Enclosure

/-- Neither a loop nor a switch. -/
def bare : Enclosure := ⟨false, false⟩

/-- With one more loop. -/
def loop (around : Enclosure) : Enclosure := { around with inLoop := true }

/-- With one more switch. -/
def switch (around : Enclosure) : Enclosure := { around with inSwitch := true }

end Enclosure

/-- The statement that declares a function. -/
def Function.declaration (function : Function) : Stmt :=
  .function function.line function.name function.parameters function.body

section Body

variable (body : List Stmt)

/-- A statement stands in a body, with these loops and switches of the body around it. -/
inductive Stands : Enclosure → Stmt → Prop where
  | top
      {stmt : Stmt}
      (member : stmt ∈ body) :
      Stands .bare stmt
  | block
      {around : Enclosure}
      {inner : List Stmt}
      {stmt : Stmt}
      (outer : Stands around (.block inner))
      (member : stmt ∈ inner) :
      Stands around stmt
  | whenTrue
      {around : Enclosure}
      {test : Expr}
      {whenTrue : Stmt}
      {whenFalse : Option Stmt}
      (outer : Stands around (.branch test whenTrue whenFalse)) :
      Stands around whenTrue
  | whenFalse
      {around : Enclosure}
      {test : Expr}
      {whenTrue whenFalse : Stmt}
      (outer : Stands around (.branch test whenTrue (some whenFalse))) :
      Stands around whenFalse
  | whileLoop
      {around : Enclosure}
      {test : Expr}
      {stmt : Stmt}
      (outer : Stands around (.whileLoop test stmt)) :
      Stands around.loop stmt
  | doLoop
      {around : Enclosure}
      {test : Expr}
      {stmt : Stmt}
      (outer : Stands around (.doLoop stmt test)) :
      Stands around.loop stmt
  | forLoop
      {around : Enclosure}
      {init : ForInit}
      {test : Option Expr}
      {steps : List Expr}
      {stmt : Stmt}
      (outer : Stands around (.forLoop init test steps stmt)) :
      Stands around.loop stmt
  | case
      {around : Enclosure}
      {discriminant : Expr}
      {cases : List SwitchCase}
      {case : SwitchCase}
      {stmt : Stmt}
      (outer : Stands around (.switch discriminant cases))
      (among : case ∈ cases)
      (member : stmt ∈ case.body) :
      Stands around.switch stmt

/-- A block that is a part of a statement of a body: a block statement or a case. -/
inductive StandsBlock : Enclosure → List Stmt → Prop where
  | block
      {around : Enclosure}
      {inner : List Stmt}
      (outer : Stands body around (.block inner)) :
      StandsBlock around inner
  | case
      {around : Enclosure}
      {discriminant : Expr}
      {cases : List SwitchCase}
      {case : SwitchCase}
      (outer : Stands body around (.switch discriminant cases))
      (among : case ∈ cases) :
      StandsBlock around.switch case.body

/-- A function that is declared in a script, maybe inside other functions. -/
inductive Declared : Function → Prop where
  | here
      {around : Enclosure}
      {function : Function}
      (stands : Stands body around function.declaration) :
      Declared function
  | inside
      {around : Enclosure}
      {outer function : Function}
      (declared : Declared outer)
      (stands : Stands outer.body around function.declaration) :
      Declared function

end Body

theorem Stands.body_ne_nil
    {body : List Stmt}
    {around : Enclosure}
    {stmt : Stmt}
    (standing : Stands body around stmt) :
    body ≠ [] := by
  induction standing with
  | top member => exact List.ne_nil_of_mem member
  | _ => assumption

theorem StandsBlock.stands
    {body block : List Stmt}
    {around : Enclosure}
    (standing : StandsBlock body around block) :
    ∀ stmt ∈ block, Stands body around stmt := by
  cases standing with
  | block outer => exact fun stmt member => .block outer member
  | case outer among => exact fun stmt member => .case outer among member

mutual

/-- Whether a statement declares no function, neither itself nor in a part of it. -/
def Stmt.isFunctionFree : Stmt → Bool
  | .function .. => false
  | .block body => areFunctionFree body
  | .branch _ whenTrue none => whenTrue.isFunctionFree
  | .branch _ whenTrue (some whenFalse) =>
      whenTrue.isFunctionFree && whenFalse.isFunctionFree
  | .whileLoop _ body => body.isFunctionFree
  | .doLoop body _ => body.isFunctionFree
  | .forLoop _ _ _ body => body.isFunctionFree
  | .switch _ cases => casesAreFunctionFree cases
  | _ => true

/-- Whether no statement declares a function. -/
def Stmt.areFunctionFree : List Stmt → Bool
  | [] => true
  | stmt :: rest => stmt.isFunctionFree && Stmt.areFunctionFree rest

/-- Whether no case declares a function. -/
def Stmt.casesAreFunctionFree : List SwitchCase → Bool
  | [] => true
  | .mk _ body :: rest => Stmt.areFunctionFree body && Stmt.casesAreFunctionFree rest

end

/-- Whether a statement declares no function in a part of it. -/
def Stmt.isShallow : Stmt → Bool
  | .function _ _ _ body => areFunctionFree body
  | stmt => stmt.isFunctionFree

/-- Whether all functions of a program are declared directly in its body. -/
def Program.functionsOnTop (program : Program) : Bool :=
  program.body.all Stmt.isShallow

namespace Stmt

theorem areFunctionFree_iff {body : List Stmt} :
    areFunctionFree body = true ↔ ∀ stmt ∈ body, stmt.isFunctionFree = true := by
  induction body with
  | nil => simp [areFunctionFree]
  | cons stmt rest inductionHypothesis =>
      rw [areFunctionFree, Bool.and_eq_true, inductionHypothesis, List.forall_mem_cons]

theorem casesAreFunctionFree_iff {cases : List SwitchCase} :
    casesAreFunctionFree cases = true ↔
      ∀ case ∈ cases, areFunctionFree case.body = true := by
  induction cases with
  | nil => simp [casesAreFunctionFree]
  | cons case rest inductionHypothesis =>
      obtain ⟨test, body⟩ := case
      rw [casesAreFunctionFree, Bool.and_eq_true, inductionHypothesis, List.forall_mem_cons]
      rfl

theorem isShallow_of_isFunctionFree
    {stmt : Stmt}
    (free : stmt.isFunctionFree = true) :
    stmt.isShallow = true := by
  cases stmt with
  | function line name parameters body =>
      rw [isFunctionFree] at free
      contradiction
  | _ => exact free

end Stmt

section OnTop

variable {body : List Stmt} {around : Enclosure}

/-- Functions that are not nested in other statements stand in a body directly. -/
theorem Stands.mem_or_isFunctionFree
    {stmt : Stmt}
    (standing : Stands body around stmt)
    (shallow : ∀ other ∈ body, other.isShallow = true) :
    stmt ∈ body ∨ stmt.isFunctionFree = true := by
  induction standing with
  | top member => exact .inl member
  | block outer member inductionHypothesis =>
      have free : Stmt.isFunctionFree _ = true := inductionHypothesis.elim (shallow _) id
      rw [Stmt.isFunctionFree] at free
      exact .inr (Stmt.areFunctionFree_iff.mp free _ member)
  | @whenTrue around test stmt whenFalse outer inductionHypothesis =>
      have free : Stmt.isFunctionFree _ = true := inductionHypothesis.elim (shallow _) id
      cases whenFalse with
      | none =>
          rw [Stmt.isFunctionFree] at free
          exact .inr free
      | some whenFalse =>
          rw [Stmt.isFunctionFree, Bool.and_eq_true] at free
          exact .inr free.1
  | whenFalse outer inductionHypothesis =>
      have free : Stmt.isFunctionFree _ = true := inductionHypothesis.elim (shallow _) id
      rw [Stmt.isFunctionFree, Bool.and_eq_true] at free
      exact .inr free.2
  | whileLoop outer inductionHypothesis
  | doLoop outer inductionHypothesis
  | forLoop outer inductionHypothesis =>
      have free : Stmt.isFunctionFree _ = true := inductionHypothesis.elim (shallow _) id
      rw [Stmt.isFunctionFree] at free
      exact .inr free
  | case outer among member inductionHypothesis =>
      have free : Stmt.isFunctionFree _ = true := inductionHypothesis.elim (shallow _) id
      rw [Stmt.isFunctionFree] at free
      have freeCase := Stmt.casesAreFunctionFree_iff.mp free _ among
      exact .inr (Stmt.areFunctionFree_iff.mp freeCase _ member)

theorem Stands.isShallow
    {stmt : Stmt}
    (standing : Stands body around stmt)
    (shallow : ∀ other ∈ body, other.isShallow = true) :
    stmt.isShallow = true :=
  (standing.mem_or_isFunctionFree shallow).elim (shallow stmt)
    Stmt.isShallow_of_isFunctionFree

theorem StandsBlock.areFunctionFree
    {block : List Stmt}
    (standing : StandsBlock body around block)
    (shallow : ∀ other ∈ body, other.isShallow = true) :
    Stmt.areFunctionFree block = true := by
  cases standing with
  | block outer =>
      have free : Stmt.isFunctionFree _ = true := outer.isShallow shallow
      rwa [Stmt.isFunctionFree] at free
  | case outer among =>
      have free : Stmt.isFunctionFree _ = true := outer.isShallow shallow
      rw [Stmt.isFunctionFree] at free
      exact Stmt.casesAreFunctionFree_iff.mp free _ among

/-- If all functions are declared directly in a body, then their own bodies declare none. -/
theorem Declared.areFunctionFree
    {function : Function}
    (declared : Declared body function)
    (shallow : ∀ stmt ∈ body, stmt.isShallow = true) :
    Stmt.areFunctionFree function.body = true := by
  induction declared with
  | here stands => exact stands.isShallow shallow
  | inside declared stands inductionHypothesis =>
      have free := Stmt.areFunctionFree_iff.mp inductionHypothesis
      obtain direct | nested := stands.mem_or_isFunctionFree fun stmt member =>
        Stmt.isShallow_of_isFunctionFree (free stmt member)
      · exact nomatch free _ direct
      · exact nomatch nested

end OnTop

end LedSketch.Script
