import LedSketch.Proofs.Native.Values
import LedSketch.Proofs.Script.SourceLines
import LedSketch.Simulation.Run

namespace LedSketch.Machine

/-!
# Limits of a running sketch

All code that a run keeps, in its control, its frames, its variables, its arrays and its
handlers, was written in the script, and so is within the limits of the script.  A step
that fails knows a line of it, unless it makes a call that the script does not contain, or
ends the program with a jump.
-/

open Script

variable {limits : Limits}

/-- Only functions carry lines. -/
theorem concernsFunctions_within : ConcernsFunctions (Value.Within limits) := by
  intro value notFunction
  cases value with
  | function closure => exact (notFunction closure rfl).elim
  | _ => trivial

/-- A completion with a value within limits. -/
def Flow.Within
    (limits : Limits) :
    Flow → Prop
  | .returned result => result.Within limits
  | _ => True

/-- A completed statement has a value within the limits. -/
theorem Flow.Within.value
    {flow : Flow}
    (within : flow.Within limits) :
    flow.value.Within limits := by
  cases flow with
  | returned result => exact within
  | normal | broke | continued => trivial

/-- A use of a place within limits. -/
def PlaceUse.Within
    (limits : Limits) :
    PlaceUse → Prop
  | .read line => limits.lines line
  | .assign line _ value => limits.lines line ∧ value.Within limits
  | .update line _ _ => limits.lines line

/-- A place that may be assigned with an operator. -/
def Place.MayAssign
    (limits : Limits)
    (op : Option BinaryOp) :
    Place → Prop
  | .variable name => limits.assigns op name
  | .element _ _ => True

/-- A place that may be used like this. -/
def Place.MayServe
    (limits : Limits)
    (place : Place) :
    PlaceUse → Prop
  | .assign _ op _ => place.MayAssign limits op
  | _ => True

/-- A target that may be resolved to be used like this. -/
def MayResolve
    (limits : Limits)
    (target : Expr) :
    PlaceUse → Prop
  | .assign _ op _ => target.MayAssign limits op
  | _ => True

/-- A name resolves to its variable, which may serve as the name may. -/
theorem MayResolve.variable
    {line : Nat}
    {name : String}
    {wanted : PlaceUse}
    (may : MayResolve limits (.name line name) wanted) :
    (Place.variable name).MayServe limits wanted := by
  cases wanted with
  | assign line op value => exact may
  | read | update => exact trivial

/-- An element may serve for all uses. -/
theorem Place.mayServe_element
    (id position : Nat)
    (wanted : PlaceUse) :
    (Place.element id position).MayServe limits wanted := by
  cases wanted <;> exact trivial

/-- A callee whose value is within limits. -/
def Callee.Within
    (limits : Limits) :
    Callee → Prop
  | .function value => value.Within limits
  | .method object _ => object.Within limits

/-- A value within limits that can be called. -/
def CallableWithin
    (limits : Limits)
    (value : Value) :
    Prop :=
  value.Within limits ∧ value.isCallable = true

/-- A function of the script, within limits. -/
def FunctionWithin
    (limits : Limits)
    (value : Value) :
    Prop :=
  ∃ closure, value = .function closure ∧ closure.function.Within limits

/-- A function of a sketch can be called on any line. -/
theorem FunctionWithin.callable
    {value : Value}
    (function : FunctionWithin limits value) :
    CallableWithin limits value := by
  obtain ⟨closure, rfl, within⟩ := function
  exact ⟨within, rfl⟩

/--
A call on a line within limits, or one that the script does not contain: on line zero and
without arguments, of a value that can be called.
-/
def CallLocated
    (limits : Limits)
    (callee : Value)
    (arguments : List Value)
    (line : Nat) :
    Prop :=
  limits.lines line ∨ line = 0 ∧ arguments = [] ∧ callee.isCallable = true

/-- A loop within limits. -/
structure Loop.Within
    (limits : Limits)
    (loop : Loop) :
    Prop where
  test : ∀ expr ∈ loop.test, expr.Within limits
  steps : ∀ expr ∈ loop.steps, expr.Within limits
  body : loop.body.Within limits

/-- A frame whose code is within limits. -/
def Frame.Within
    (limits : Limits) :
    Frame → Prop
  | .arrayItem done rest =>
      (∀ item ∈ done, item.Within limits) ∧ ∀ item ∈ rest, item.Within limits
  | .unaryOperand line _ => limits.lines line
  | .leftOperand line _ right => limits.lines line ∧ right.Within limits
  | .rightOperand line _ _ => limits.lines line
  | .logicalLeft _ right => right.Within limits
  | .conditionalTest whenTrue whenFalse => whenTrue.Within limits ∧ whenFalse.Within limits
  | .assignedValue line op place => limits.lines line ∧ place.MayAssign limits op
  | .castOperand line _ => limits.lines line
  | .memberObject line _ => limits.lines line
  | .callTarget line arguments =>
      limits.lines line ∧ ∀ argument ∈ arguments, argument.Within limits
  | .methodObject line _ arguments =>
      limits.lines line ∧ ∀ argument ∈ arguments, argument.Within limits
  | .callArgument line callee done rest =>
      limits.lines line ∧ callee.Within limits ∧
        (∀ argument ∈ done, argument.Within limits) ∧
          ∀ argument ∈ rest, argument.Within limits
  | .indexedObject line position use =>
      limits.lines line ∧ position.Within limits ∧ use.Within limits
  | .indexPosition line _ use => limits.lines line ∧ use.Within limits
  | .declaredValue name rest =>
      limits.declares name ∧ ∀ declarator ∈ rest, declarator.Within limits
  | .branchTest whenTrue whenFalse =>
      whenTrue.Within limits ∧ ∀ stmt ∈ whenFalse, stmt.Within limits
  | .loopTest loop => loop.Within limits
  | .loopStep loop rest => loop.Within limits ∧ ∀ expr ∈ rest, expr.Within limits
  | .switchValue cases => ∀ case ∈ cases, case.Within limits
  | .switchTest _ rest cases =>
      (∀ case ∈ rest, case.Within limits) ∧ ∀ case ∈ cases, case.Within limits
  | .defaultValue name rest body =>
      limits.declares name ∧
        (∀ parameter ∈ rest, parameter.Within limits) ∧ ∀ stmt ∈ body, stmt.Within limits
  | .dispatchBeforeLoop main => FunctionWithin limits main
  | .loopCall main => FunctionWithin limits main
  | .iterationEnd main => FunctionWithin limits main
  | .blockRest rest => ∀ stmt ∈ rest, stmt.Within limits
  | .loopStart loop => loop.Within limits
  | .loopBody loop => loop.Within limits
  | .caseRest rest => ∀ case ∈ rest, case.Within limits
  | _ => True

/-- A control whose code is within limits, and whose calls are located. -/
def Control.Within
    (limits : Limits) :
    Control → Prop
  | .eval expr => expr.Within limits
  | .exec stmt => stmt.Within limits
  | .enterBlock body => ∀ stmt ∈ body, stmt.Within limits
  | .statements rest => ∀ stmt ∈ rest, stmt.Within limits
  | .declare declarators => ∀ declarator ∈ declarators, declarator.Within limits
  | .turn loop => loop.Within limits
  | .steps loop rest => loop.Within limits ∧ ∀ expr ∈ rest, expr.Within limits
  | .findCase _ rest all =>
      (∀ case ∈ rest, case.Within limits) ∧ ∀ case ∈ all, case.Within limits
  | .cases rest => ∀ case ∈ rest, case.Within limits
  | .arrayItems done rest =>
      (∀ item ∈ done, item.Within limits) ∧ ∀ item ∈ rest, item.Within limits
  | .collectArguments line callee done rest =>
      limits.lines line ∧ callee.Within limits ∧
        (∀ argument ∈ done, argument.Within limits) ∧
          ∀ argument ∈ rest, argument.Within limits
  | .resolve target wanted =>
      target.Within limits ∧ wanted.Within limits ∧ MayResolve limits target wanted
  | .use place wanted => wanted.Within limits ∧ place.MayServe limits wanted
  | .call callee arguments line =>
      callee.Within limits ∧ (∀ argument ∈ arguments, argument.Within limits) ∧
        CallLocated limits callee arguments line
  | .invoke object _ arguments line =>
      object.Within limits ∧ (∀ argument ∈ arguments, argument.Within limits) ∧ limits.lines line
  | .bindParameters parameters arguments body =>
      (∀ parameter ∈ parameters, parameter.Within limits) ∧
        (∀ argument ∈ arguments, argument.Within limits) ∧
          ∀ stmt ∈ body, stmt.Within limits
  | .loopTop main => FunctionWithin limits main
  | .value result => result.Within limits
  | .flow completion => completion.Within limits
  | .raise interrupt => interrupt.Located limits.lines
  | .halted (.failed failure) => limits.lines failure.line
  | _ => True

/-- A state whose stored code, all but its control, is within limits. -/
structure State.Hold
    (limits : Limits)
    (state : State) :
    Prop where
  stack : ∀ frame ∈ state.stack, frame.Within limits
  scopes : state.scopes.Hold (Value.Within limits)
  world : state.world.Hold (Value.Within limits)

/-- A state whose code is within limits. -/
structure State.Within
    (limits : Limits)
    (state : State) :
    Prop where
  hold : state.Hold limits
  control : state.control.Within limits

/-- A fault that a step raises on line zero, where it knows no line of the script. -/
inductive State.RaisesOffLines
    (state : State)
    (fault : RuntimeFault) :
    Prop where
  /-- The script does not contain the call. -/
  | call
      {callee : Value}
      (asked : state.control = .call callee [] 0)
      (callable : callee.isCallable = true)
      (raises : state.step.control = .raise (.runtime 0 fault))
  /-- The program ends with a jump. -/
  | jump
      {flow : Flow}
      {rest : List Frame}
      (completed : state.control = .flow flow)
      (top : state.stack = .topLevel :: rest)
      (raises : state.step.control = .raise (.runtime 0 fault))

/-- The cases from the default on are the last ones. -/
theorem fromDefault_suffix (cases : List SwitchCase) : fromDefault cases <:+ cases := by
  induction cases with
  | nil => exact List.suffix_refl []
  | cons case rest inductionHypothesis =>
      unfold fromDefault
      split
      · exact List.suffix_refl _
      · exact inductionHypothesis.trans (List.suffix_cons case rest)

/-- Positions lead to elements of arrays. -/
theorem element_of_elementPlace
    {heap : Heap}
    {object : Value}
    {position : Int64}
    {place : Place}
    (found : elementPlace heap object position = .ok place) :
    ∃ id item, place = .element id item := by
  unfold elementPlace at found
  split at found
  · split at found
    · cases found
      exact ⟨_, _, rfl⟩
    · contradiction
  · contradiction

/-- Only arrays and texts have a member, their length. -/
theorem memberValue_within
    {heap : Heap}
    {name : String}
    {object found : Value}
    (isMember : memberValue heap name object = some found) :
    found.Within limits := by
  unfold memberValue at isMember
  split at isMember
  · split at isMember
    · cases isMember
      trivial
    · contradiction
  · split at isMember
    · cases isMember
      trivial
    · contradiction
  · contradiction

/-- Hoisting binds functions of the body only. -/
theorem hold_hoist
    {body : List Stmt}
    {scopes : Scopes}
    (birth : Nat)
    (parts : ∀ stmt ∈ body, stmt.Within limits)
    (hold : scopes.Hold (Value.Within limits)) :
    (hoist birth body scopes).Hold (Value.Within limits) := by
  induction body generalizing scopes with
  | nil => exact hold
  | cons stmt rest inductionHypothesis =>
      obtain ⟨first, others⟩ := List.forall_mem_cons.mp parts
      cases first with
      | @function line name parameters inner here named defaults innerParts =>
          have within :
              Value.Within limits
                (.function ⟨⟨line, name, parameters, inner⟩, scopes.current, birth⟩) :=
            ⟨here, defaults, innerParts⟩
          exact inductionHypothesis others (hold.declare within)
      | _ => exact inductionHypothesis others hold

namespace State.Hold

variable {state : State}

/-- A control within the limits may be gone on with. -/
theorem goto
    {control : Control}
    (hold : state.Hold limits)
    (within : control.Within limits) :
    (state.goto control).Within limits :=
  ⟨⟨hold.stack, hold.scopes, hold.world⟩, within⟩

theorem push
    {frame : Frame}
    (hold : state.Hold limits)
    (within : frame.Within limits) :
    (state.push frame).Hold limits :=
  ⟨List.forall_mem_cons.mpr ⟨within, hold.stack⟩, hold.scopes, hold.world⟩

theorem into
    {frame : Frame}
    {control : Control}
    (hold : state.Hold limits)
    (frameWithin : frame.Within limits)
    (controlWithin : control.Within limits) :
    (state.into frame control).Within limits :=
  (hold.push frameWithin).goto controlWithin

theorem withScopes
    {scopes : Scopes}
    (hold : state.Hold limits)
    (within : scopes.Hold (Value.Within limits)) :
    (state.withScopes scopes).Hold limits :=
  ⟨hold.stack, within, hold.world⟩

theorem withWorld
    {world : World}
    (hold : state.Hold limits)
    (within : world.Hold (Value.Within limits)) :
    (state.withWorld world).Hold limits :=
  ⟨hold.stack, hold.scopes, within⟩

theorem give
    {value : Value}
    (hold : state.Hold limits)
    (within : value.Within limits) :
    (state.give value).Within limits :=
  hold.goto within

/-- A fault may be raised on a line of the limits. -/
theorem fault
    {line : Nat}
    (hold : state.Hold limits)
    (here : limits.lines line)
    (fault : RuntimeFault) :
    (state.fault line fault).Within limits :=
  hold.goto here

/-- An operator has a result within the limits, or fails on its line. -/
theorem giveOperation
    {line : Nat}
    {computed : Except TypeFault Value}
    (hold : state.Hold limits)
    (here : limits.lines line)
    (yields : Yields (Value.Within limits) computed) :
    (state.giveOperation line computed).Within limits := by
  cases computed with
  | ok value => exact hold.give (yields value rfl)
  | error fault => exact hold.fault here _

/-- The parts of an expression are within the limits. -/
theorem stepEval
    {expr : Expr}
    (hold : state.Hold limits)
    (within : expr.Within limits) :
    (state.stepEval expr).Within limits := by
  cases within with
  | int | float | text | bool | undefined => exact hold.goto trivial
  | @name line name here =>
      unfold State.stepEval
      dsimp only
      split
      · next found => exact hold.give (hold.scopes.get? found)
      · exact hold.fault here _
  | array here parts => exact hold.goto ⟨by simp, parts⟩
  | unary here part => exact hold.into here part
  | binary here first second => exact hold.into ⟨here, second⟩ first
  | logical here first second => exact hold.into second first
  | conditional here tested first second => exact hold.into ⟨first, second⟩ tested
  | assign here allowed first second => exact hold.goto ⟨first, ⟨here, second⟩, allowed⟩
  | update here part => exact hold.goto ⟨part, here, trivial⟩
  | cast here part => exact hold.into here part
  | await here part => exact hold.goto part
  | call here called parts =>
      unfold State.stepEval
      dsimp only
      split
      · cases called with
        | member _ part => exact hold.into ⟨here, parts⟩ part
      · exact hold.into ⟨here, parts⟩ called
  | member here part => exact hold.into here part
  | index here first second => exact hold.goto ⟨.index here first second, here, trivial⟩

/-- The parts of a statement are within the limits. -/
theorem stepExec
    {stmt : Stmt}
    (hold : state.Hold limits)
    (within : stmt.Within limits) :
    (state.stepExec stmt).Within limits := by
  cases within with
  | declare here parts => exact hold.goto parts
  | function | breaks | continues | empty => exact hold.goto trivial
  | expr part => exact hold.into trivial part
  | block parts => exact (hold.withScopes hold.scopes.push).into trivial parts
  | branch tested first second => exact hold.into ⟨first, second⟩ tested
  | whileLoop tested repeated =>
      exact hold.goto ⟨by simpa using tested, by simp, repeated⟩
  | doLoop repeated tested =>
      exact hold.into ⟨by simpa using tested, by simp, repeated⟩ repeated
  | @forLoop init test steps body started tested stepped repeated =>
      have opened : ((state.withScopes state.scopes.push).push .openScope).Hold limits :=
        (hold.withScopes hold.scopes.push).push trivial
      have loop : Loop.Within limits ⟨test, steps, body⟩ := ⟨tested, stepped, repeated⟩
      cases init with
      | nothing => exact opened.goto loop
      | declare line declarators => exact opened.into loop started.2
      | expr value =>
          have started : value.Within limits := started
          have inLoop :
              (((state.withScopes state.scopes.push).push .openScope).push
                (.loopStart ⟨test, steps, body⟩)).Hold limits :=
            opened.push loop
          exact inLoop.into trivial started
  | switch tested parts => exact hold.into parts tested
  | @returns line value here part =>
      cases value with
      | none => exact hold.goto trivial
      | some expr => exact hold.into trivial (part expr rfl)

/-- The declarators of a declaration are within the limits. -/
theorem stepDeclare
    {declarators : List Declarator}
    (hold : state.Hold limits)
    (within : ∀ declarator ∈ declarators, declarator.Within limits) :
    (state.stepDeclare declarators).Within limits := by
  cases declarators with
  | nil => exact hold.goto trivial
  | cons declarator rest =>
      obtain ⟨first, others⟩ := List.forall_mem_cons.mp within
      unfold State.stepDeclare
      dsimp only
      split
      · next init isInit => exact hold.into ⟨first.named, others⟩ (first.init init isInit)
      · have noValue : Value.Within limits .undefined := trivial
        exact (hold.withScopes (hold.scopes.declare noValue)).goto others

/-- The parts of a loop are within the limits. -/
theorem stepTurn
    {loop : Loop}
    (hold : state.Hold limits)
    (within : loop.Within limits) :
    (state.stepTurn loop).Within limits := by
  unfold State.stepTurn
  split
  · next test isTest => exact hold.into within (within.test test isTest)
  · exact hold.into within within.body

theorem stepSteps
    {loop : Loop}
    {rest : List Expr}
    (hold : state.Hold limits)
    (within : loop.Within limits)
    (stepped : ∀ expr ∈ rest, expr.Within limits) :
    (state.stepSteps loop rest).Within limits := by
  cases rest with
  | nil => exact hold.goto within
  | cons expr rest =>
      obtain ⟨first, others⟩ := List.forall_mem_cons.mp stepped
      exact hold.into ⟨within, others⟩ first

theorem enterCases
    {cases : List SwitchCase}
    (hold : state.Hold limits)
    (within : ∀ case ∈ cases, case.Within limits) :
    (state.enterCases cases).Within limits := by
  unfold State.enterCases
  split
  · exact hold.goto trivial
  · exact (hold.withScopes hold.scopes.push).into trivial within

/-- The tests of the cases are within the limits. -/
theorem stepFindCase
    {value : Value}
    {rest cases : List SwitchCase}
    (hold : state.Hold limits)
    (restWithin : ∀ case ∈ rest, case.Within limits)
    (within : ∀ case ∈ cases, case.Within limits) :
    (state.stepFindCase value rest cases).Within limits := by
  unfold State.stepFindCase
  split
  · exact hold.enterCases fun case member =>
      within case ((fromDefault_suffix cases).subset member)
  · obtain ⟨first, others⟩ := List.forall_mem_cons.mp restWithin
    split
    · next test isTest => exact hold.into ⟨restWithin, within⟩ (first.test test isTest)
    · exact hold.goto ⟨others, within⟩

theorem stepCases
    {rest : List SwitchCase}
    (hold : state.Hold limits)
    (within : ∀ case ∈ rest, case.Within limits) :
    (state.stepCases rest).Within limits := by
  cases rest with
  | nil => exact hold.goto trivial
  | cons case rest =>
      obtain ⟨first, others⟩ := List.forall_mem_cons.mp within
      exact hold.into others first.body

/-- An array of values within the limits holds such values. -/
theorem stepArrayItems
    {done : List Value}
    {rest : List Expr}
    (hold : state.Hold limits)
    (doneWithin : ∀ item ∈ done, item.Within limits)
    (within : ∀ item ∈ rest, item.Within limits) :
    (state.stepArrayItems done rest).Within limits := by
  cases rest with
  | nil =>
      have items : ∀ item ∈ done.reverse.toArray, item.Within limits := by
        simpa using doneWithin
      have world :
          World.Hold (Value.Within limits)
            { state.world with
              heap := (state.world.heap.allocate done.reverse.toArray).2 } :=
        ⟨hold.world.heap.allocate items, hold.world.board⟩
      exact (hold.withWorld world).give (concernsFunctions_within.array _)
  | cons item rest =>
      obtain ⟨first, others⟩ := List.forall_mem_cons.mp within
      exact hold.into ⟨doneWithin, others⟩ first

/-- A callee is called with arguments within the limits. -/
theorem stepArguments
    {line : Nat}
    {callee : Callee}
    {done : List Value}
    {rest : List Expr}
    (hold : state.Hold limits)
    (here : limits.lines line)
    (called : callee.Within limits)
    (doneWithin : ∀ argument ∈ done, argument.Within limits)
    (within : ∀ argument ∈ rest, argument.Within limits) :
    (state.stepArguments line callee done rest).Within limits := by
  cases rest with
  | nil =>
      have given : ∀ argument ∈ done.reverse, argument.Within limits := by
        simpa using doneWithin
      cases callee with
      | function value => exact hold.goto ⟨called, given, .inl here⟩
      | method object name => exact hold.goto ⟨called, given, here⟩
  | cons argument rest =>
      obtain ⟨first, others⟩ := List.forall_mem_cons.mp within
      exact hold.into ⟨here, called, doneWithin, others⟩ first

/-- The parts of a target are within the limits, and its place may serve its use. -/
theorem stepResolve
    {target : Expr}
    {use : PlaceUse}
    (hold : state.Hold limits)
    (within : target.Within limits)
    (useWithin : use.Within limits)
    (may : MayResolve limits target use) :
    (state.stepResolve target use).Within limits := by
  unfold State.stepResolve
  split
  · exact hold.goto ⟨useWithin, may.variable⟩
  · cases within with
    | index here first second => exact hold.into ⟨here, second, useWithin⟩ first
  · exact hold.fault within.line _

/-- What is read at a place is within the limits. -/
theorem readPlace
    (hold : state.Hold limits)
    (place : Place) :
    Yields (Value.Within limits) (state.readPlace place) := by
  rcases place with name | ⟨id, position⟩
  · unfold State.readPlace
    dsimp only
    split
    · next found => exact .ok (hold.scopes.get? found)
    · exact .error
  · apply Yields.ok
    cases found : state.world.heap.get? id position with
    | none => exact concernsFunctions_within.undefined
    | some value => exact hold.world.heap.get? found

/-- A value within the limits may be stored at every place. -/
theorem storeAndGive
    {line : Nat}
    {stored given : Value}
    (hold : state.Hold limits)
    (here : limits.lines line)
    (place : Place)
    (storedWithin : stored.Within limits)
    (givenWithin : given.Within limits) :
    (state.storeAndGive line place stored given).Within limits := by
  unfold State.storeAndGive State.writePlace
  rcases place with name | ⟨id, position⟩
  · dsimp only
    cases set : state.scopes.set? name stored with
    | none => exact hold.fault here _
    | some scopes =>
        exact (hold.withScopes (hold.scopes.set? storedWithin set)).give givenWithin
  · have world :
        World.Hold (Value.Within limits)
          { state.world with heap := state.world.heap.set id position stored } :=
      ⟨hold.world.heap.set id position storedWithin, hold.world.board⟩
    exact (hold.withWorld world).give givenWithin

/-- An assignment stores a value within the limits. -/
theorem finishAssign
    {line : Nat}
    {value : Value}
    (hold : state.Hold limits)
    (here : limits.lines line)
    (op : Option BinaryOp)
    (place : Place)
    (within : value.Within limits) :
    (state.finishAssign line op place value).Within limits := by
  unfold State.finishAssign
  split
  · exact hold.storeAndGive here place within within
  · split
    · exact hold.fault here _
    · split
      · exact hold.fault here _
      · next computed =>
          have result : Value.Within limits _ :=
            Value.yields_binary concernsFunctions_within _ _ _ _ _ computed
          exact hold.storeAndGive here place result result

/-- A step stores what its operator makes of the value. -/
theorem finishUpdate
    {line : Nat}
    (hold : state.Hold limits)
    (here : limits.lines line)
    (step : Script.Step)
    (fixity : Fixity)
    (place : Place) :
    (state.finishUpdate line step fixity place).Within limits := by
  unfold State.finishUpdate
  split
  · exact hold.fault here _
  · next current read =>
      split
      · exact hold.fault here _
      · next updated computed =>
          have result : Value.Within limits _ :=
            Value.yields_binary concernsFunctions_within _ _ _ _ _ computed
          refine hold.storeAndGive here place result ?_
          cases fixity with
          | before => exact result
          | after => exact hold.readPlace place _ read

/-- Every use of a place stays within the limits. -/
theorem stepUse
    {use : PlaceUse}
    (hold : state.Hold limits)
    (place : Place)
    (within : use.Within limits)
    (may : place.MayServe limits use) :
    (state.stepUse place use).Within limits := by
  cases use with
  | read line =>
      unfold State.stepUse
      dsimp only
      split
      · next value read => exact hold.give (hold.readPlace place _ read)
      · exact hold.fault within _
  | assign line op value => exact hold.into ⟨within.1, may⟩ within.2
  | update line step fixity => exact hold.finishUpdate within step fixity place

/-- A function is entered unless it fails, where the caller answers for the line. -/
theorem enterFunction
    {closure : Closure}
    {arguments : List Value}
    {line : Nat}
    (hold : state.Hold limits)
    (within : closure.function.Within limits)
    (given : ∀ argument ∈ arguments, argument.Within limits)
    (raises :
      ∀ fault,
        (state.enterFunction closure arguments line).control = .raise (.runtime line fault) →
        limits.lines line) :
    (state.enterFunction closure arguments line).Within limits := by
  unfold State.enterFunction at raises ⊢
  split
  · next deep =>
      rw [if_pos deep] at raises
      exact hold.fault (raises _ rfl) _
  · next shallow =>
      rw [if_neg shallow] at raises
      split
      · have entered := hold.withScopes (hold.scopes.pushUnder closure.scope)
        have activated :
            (((state.withScopes (state.scopes.pushUnder closure.scope)).push
              (.activation state.depth))).Hold limits :=
          entered.push trivial
        exact ⟨⟨activated.stack, activated.scopes, activated.world⟩, within.defaults, given,
          within.parts⟩
      · next closed =>
          rw [if_neg closed] at raises
          exact hold.fault (raises _ rfl) _

/-- A native call stays within the limits unless it fails, where the caller answers for the line. -/
theorem callNative
    {builtin : Builtin}
    {arguments : List Value}
    {line : Nat}
    (hold : state.Hold limits)
    (located : CallLocated limits (.builtin builtin) arguments line)
    (raises :
      ∀ fault,
        (state.callNative builtin arguments line).control = .raise (.runtime line fault) →
        limits.lines line) :
    (state.callNative builtin arguments line).Within limits := by
  obtain ⟨world, answer⟩ :=
    (Native.Moves.compositional concernsFunctions_within).callBuiltin builtin arguments
      state.world hold.world
  unfold State.callNative at raises ⊢
  split
  · next value after ran =>
      rw [ran] at world answer
      exact (hold.withWorld world).give (answer _ rfl)
  · next after ran =>
      rw [ran] at world
      exact (hold.withWorld world).into trivial trivial
  · next fault after ran =>
      rw [ran] at world raises
      have here : limits.lines line := by
        rcases located with here | ⟨_, rfl, _⟩
        · exact here
        -- For the host there are no arguments a strip or a color helper could refuse.
        · obtain ⟨missing, rfl⟩ := Native.fault_of_no_arguments ran
          exact raises _ rfl
      exact (hold.withWorld world).goto (Interrupt.located_ofCall here fault)

/-- A call stays within the limits unless it fails, where the caller answers for the line. -/
theorem stepCall
    {callee : Value}
    {arguments : List Value}
    {line : Nat}
    (hold : state.Hold limits)
    (within : callee.Within limits)
    (given : ∀ argument ∈ arguments, argument.Within limits)
    (located : CallLocated limits callee arguments line)
    (raises :
      ∀ fault,
        (state.stepCall callee arguments line).control = .raise (.runtime line fault) →
        limits.lines line) :
    (state.stepCall callee arguments line).Within limits := by
  cases callee with
  | function closure => exact hold.enterFunction within given raises
  | builtin builtin => exact hold.callNative located raises
  | _ => exact hold.fault (raises _ rfl) _

/-- A method call stays within the limits, and fails on its own line. -/
theorem stepInvoke
    {object : Value}
    {name : String}
    {arguments : List Value}
    {line : Nat}
    (hold : state.Hold limits)
    (given : ∀ argument ∈ arguments, argument.Within limits)
    (here : limits.lines line) :
    (state.stepInvoke object name arguments line).Within limits := by
  cases object with
  | object handle =>
      obtain ⟨world, answer⟩ :=
        (Native.Moves.compositional concernsFunctions_within).callMethod given handle name
          state.world hold.world
      unfold State.stepInvoke
      dsimp only
      split
      · next value after ran =>
          rw [ran] at world answer
          exact (hold.withWorld world).give (answer _ rfl)
      · next fault after ran =>
          rw [ran] at world
          exact (hold.withWorld world).goto (Interrupt.located_ofCall here fault)
  | _ => exact hold.fault here _

/-- Parameters take arguments, or defaults, which are within the limits. -/
theorem stepBind
    {parameters : List Parameter}
    {arguments : List Value}
    {body : List Stmt}
    (hold : state.Hold limits)
    (defaults : ∀ parameter ∈ parameters, parameter.Within limits)
    (given : ∀ argument ∈ arguments, argument.Within limits)
    (parts : ∀ stmt ∈ body, stmt.Within limits) :
    (state.stepBind parameters arguments body).Within limits := by
  unfold State.stepBind
  split
  · exact hold.goto parts
  · next parameter rest =>
      obtain ⟨first, others⟩ := List.forall_mem_cons.mp defaults
      split
      · next argument arguments =>
          obtain ⟨firstGiven, othersGiven⟩ := List.forall_mem_cons.mp given
          exact (hold.withScopes (hold.scopes.declare firstGiven)).goto
            ⟨others, othersGiven, parts⟩
      · split
        · next default isDefault =>
            exact hold.into ⟨first.named, others, parts⟩ (first.default default isDefault)
        · have noValue : Value.Within limits .undefined := trivial
          exact (hold.withScopes (hold.scopes.declare noValue)).goto
            ⟨others, by simp, parts⟩

/-- The handler of a button can be called. -/
theorem handlerOf?
    {id : Nat}
    {label : String}
    {handler : Value}
    (hold : state.Hold limits)
    (found : State.handlerOf? state.world.board id = some (label, handler)) :
    CallableWithin limits handler := by
  unfold State.handlerOf? at found
  split at found
  · next button isButton =>
      obtain ⟨set, isSet, same⟩ := Option.map_eq_some_iff.mp found
      cases same
      exact hold.world.board button (Array.mem_of_getElem? isButton) handler isSet
  · contradiction

/-- A handler is called on the line of its function, or for the host. -/
theorem callLocated_handler
    {handler : Value}
    (callable : CallableWithin limits handler) :
    CallLocated limits handler [] (State.handlerLine handler) := by
  obtain ⟨within, isCallable⟩ := callable
  cases handler with
  | function closure => exact .inl within.here
  | _ => exact .inr ⟨rfl, rfl, isCallable⟩

/-- An entry point is a function of the sketch. -/
theorem entryPoint?
    {name : String}
    {main : Value}
    (hold : state.Hold limits)
    (found : state.entryPoint? name = some main) :
    FunctionWithin limits main := by
  unfold State.entryPoint? at found
  split at found
  · next closure bound =>
      cases found
      exact ⟨closure, rfl, hold.scopes.getFrom? bound⟩
  · contradiction

/-- A call of `setup` or `loop`, which the script does not contain. -/
theorem control_within_entryCall
    {main : Value}
    (function : FunctionWithin limits main) :
    Control.Within limits (.call main [] 0) :=
  ⟨function.callable.1, by simp, .inr ⟨rfl, rfl, function.callable.2⟩⟩

/-- The handler of a click is called on a line of the limits or without arguments. -/
theorem stepNextClick
    (hold : state.Hold limits)
    (selecting : state.control = .nextClick) :
    state.stepNextClick.Within limits := by
  unfold State.stepNextClick
  dsimp only
  split
  · exact ⟨⟨hold.stack, hold.scopes, hold.world⟩, trivial⟩
  · next id clicks taken =>
      split
      · refine ⟨⟨hold.stack, hold.scopes, ⟨hold.world.heap, hold.world.board⟩⟩, ?_⟩
        -- A click of no button is dropped, and the next one is selected.
        change state.control.Within limits
        rw [selecting]
        trivial
      · next label handler handled =>
          have callable := hold.handlerOf? handled
          have clicked :
              (state.withWorld { state.world with
                host := { state.world.host with clicks }.record
                  (.buttonClicked id label) }).Hold limits :=
            ⟨hold.stack, hold.scopes, ⟨hold.world.heap, hold.world.board⟩⟩
          split
          · exact clicked.into trivial
              ⟨callable.1, by simp, callLocated_handler callable⟩
          · exact ⟨⟨clicked.stack, clicked.scopes, clicked.world⟩, trivial⟩

theorem stepFindSetup (hold : state.Hold limits) : state.stepFindSetup.Within limits := by
  unfold State.stepFindSetup
  split
  · next setup found =>
      exact hold.into trivial (control_within_entryCall (hold.entryPoint? found))
  · exact hold.goto trivial

theorem stepFindLoop (hold : state.Hold limits) : state.stepFindLoop.Within limits := by
  unfold State.stepFindLoop
  split
  · next main found => exact hold.goto (hold.entryPoint? found)
  · exact hold.goto trivial

/-- The function `loop` is called without arguments. -/
theorem stepLoopTop
    {main : Value}
    (hold : state.Hold limits)
    (function : FunctionWithin limits main) :
    (state.stepLoopTop main).Within limits := by
  unfold State.stepLoopTop
  split
  · split
    · exact hold.goto trivial
    · exact hold.into function trivial
  · exact hold.goto trivial

/-- A frame that gets a value within the limits goes on within them. -/
theorem stepValue
    {value : Value}
    {frame : Frame}
    (hold : state.Hold limits)
    (within : frame.Within limits)
    (given : value.Within limits) :
    (state.stepValue value frame).Within limits := by
  cases frame with
  | arrayItem done rest =>
      exact hold.goto ⟨List.forall_mem_cons.mpr ⟨given, within.1⟩, within.2⟩
  | unaryOperand line op =>
      exact hold.giveOperation within (Value.yields_unary concernsFunctions_within _ _)
  | leftOperand line op right => exact hold.into within.1 within.2
  | rightOperand line op left =>
      exact hold.giveOperation within (Value.yields_binary concernsFunctions_within _ _ _ _)
  | logicalLeft op right =>
      unfold State.stepValue
      dsimp only
      split
      · exact hold.goto trivial
      · exact hold.goto trivial
      · exact hold.into trivial within
  | logicalRight => exact hold.goto trivial
  | conditionalTest whenTrue whenFalse =>
      refine hold.goto ?_
      change (if value.truthy then whenTrue else whenFalse).Within limits
      split
      · exact within.1
      · exact within.2
  | assignedValue line op place => exact hold.finishAssign within.1 op place given
  | castOperand line kind =>
      exact hold.giveOperation within (Value.yields_cast concernsFunctions_within _ _)
  | memberObject line name =>
      unfold State.stepValue
      dsimp only
      split
      · next found isMember => exact hold.give (memberValue_within isMember)
      · exact hold.fault within _
  | callTarget line arguments => exact hold.goto ⟨within.1, given, by simp, within.2⟩
  | methodObject line name arguments => exact hold.goto ⟨within.1, given, by simp, within.2⟩
  | callArgument line callee done rest =>
      obtain ⟨here, called, doneWithin, restWithin⟩ := within
      exact hold.goto
        ⟨here, called, List.forall_mem_cons.mpr ⟨given, doneWithin⟩, restWithin⟩
  | indexedObject line position use =>
      obtain ⟨here, second, useWithin⟩ := within
      exact hold.into ⟨here, useWithin⟩ second
  | indexPosition line object use =>
      unfold State.stepValue
      dsimp only
      split
      · exact hold.fault within.1 _
      · split
        · next place found =>
            obtain ⟨id, item, rfl⟩ := element_of_elementPlace found
            exact hold.goto ⟨within.2, Place.mayServe_element _ _ _⟩
        · exact hold.fault within.1 _
  | declaredValue name rest =>
      exact (hold.withScopes (hold.scopes.declare given)).goto within.2
  | discarded => exact hold.goto trivial
  | branchTest whenTrue whenFalse =>
      unfold State.stepValue
      dsimp only
      split
      · exact hold.goto within.1
      · cases whenFalse with
        | some stmt => exact hold.goto (within.2 stmt rfl)
        | none => exact hold.goto trivial
  | loopTest loop =>
      have within : loop.Within limits := within
      unfold State.stepValue
      dsimp only
      split
      · exact hold.into within within.body
      · exact hold.goto trivial
  | loopStep loop rest => exact hold.goto within
  | switchValue cases => exact hold.goto ⟨within, within⟩
  | switchTest wanted rest cases =>
      unfold State.stepValue
      dsimp only
      split
      · exact hold.enterCases within.1
      · exact hold.goto
          ⟨fun case member => within.1 case (List.mem_of_mem_drop member), within.2⟩
  | returnedValue => exact hold.goto given
  | defaultValue name rest body =>
      exact (hold.withScopes (hold.scopes.declare given)).goto
        ⟨within.2.1, by simp, within.2.2⟩
  | handlerCall | setupCall => exact hold.goto trivial
  | delayEnd line =>
      unfold State.stepValue
      dsimp only
      split
      · exact hold.goto trivial
      · exact hold.goto trivial
  | dispatchBeforeLoop main => exact hold.into within (control_within_entryCall within)
  | loopCall main =>
      have resting : (state.push (.iterationEnd main)).Hold limits := hold.push within
      exact ⟨⟨resting.stack, resting.scopes, resting.world⟩, trivial⟩
  | iterationEnd main => exact hold.goto within
  | blockRest | openScope | loopStart | loopBody | caseRest | activation | topLevel =>
      exact hold.into within trivial

/-- A completed statement leaves its frame within the limits, unless it ends the program. -/
theorem stepFlow
    {flow : Flow}
    {frame : Frame}
    (hold : state.Hold limits)
    (within : frame.Within limits)
    (completed : flow.Within limits)
    (raises :
      ∀ fault,
        frame = .topLevel →
        (state.stepFlow flow frame).control = .raise (.runtime 0 fault) →
        limits.lines 0) :
    (state.stepFlow flow frame).Within limits := by
  cases frame with
  | blockRest rest => cases flow <;> exact hold.goto (by assumption)
  | openScope => exact (hold.withScopes hold.scopes.pop).goto completed
  | loopStart loop => cases flow <;> exact hold.goto (by assumption)
  | loopBody loop =>
      have within : loop.Within limits := within
      cases flow with
      | broke => exact hold.goto trivial
      | returned result => exact hold.goto completed
      | normal | continued => exact hold.goto ⟨within, within.steps⟩
  | caseRest rest =>
      cases flow with
      | broke => exact hold.goto trivial
      | normal | returned | continued => exact hold.goto (by assumption)
  | activation outerDepth =>
      have popped := hold.withScopes hold.scopes.pop
      exact ⟨⟨popped.stack, popped.scopes, popped.world⟩, completed.value⟩
  | topLevel =>
      cases flow with
      | normal => exact hold.goto trivial
      | returned | broke | continued => exact hold.fault (raises _ rfl rfl) _
  | _ => exact hold.into within completed.value

theorem stepRaise
    {frame : Frame}
    (hold : state.Hold limits)
    (raised : state.control.Within limits) :
    (state.stepRaise frame).Within limits := by
  cases frame with
  | openScope | activation => exact ⟨⟨hold.stack, hold.scopes.pop, hold.world⟩, raised⟩
  | _ => exact ⟨⟨hold.stack, hold.scopes, hold.world⟩, raised⟩

theorem stepDispatch (hold : state.Hold limits) : state.stepDispatch.Within limits := by
  unfold State.stepDispatch
  split
  · exact hold.goto trivial
  · exact ⟨⟨hold.stack, hold.scopes, hold.world⟩, trivial⟩

/-- The frame on top is within the limits, and so are those below it. -/
theorem popped
    {frame : Frame}
    {rest : List Frame}
    (hold : state.Hold limits)
    (top : state.stack = frame :: rest) :
    frame.Within limits ∧ (state.popped rest).Hold limits := by
  have stack := hold.stack
  rw [top] at stack
  obtain ⟨first, others⟩ := List.forall_mem_cons.mp stack
  exact ⟨first, others, hold.scopes, hold.world⟩

end State.Hold

namespace State.Within

variable {state : State}

/-- A step makes its code from code that the run has kept, and knows the line if it fails. -/
theorem step
    (within : state.Within limits)
    (located : ∀ fault, state.RaisesOffLines fault → limits.lines 0) :
    state.step.Within limits := by
  obtain ⟨hold, running⟩ := within
  unfold State.step
  cases control : state.control <;> rw [control] at running
  case eval expr => exact hold.stepEval running
  case exec stmt => exact hold.stepExec running
  case enterBlock body =>
    have scopes := hold_hoist state.nextBirth running hold.scopes
    exact ⟨⟨hold.stack, scopes, hold.world⟩, running⟩
  case statements rest =>
    cases rest with
    | nil => exact hold.goto trivial
    | cons stmt rest =>
        obtain ⟨first, others⟩ := List.forall_mem_cons.mp running
        exact hold.into others first
  case declare declarators => exact hold.stepDeclare running
  case turn loop => exact hold.stepTurn running
  case steps loop rest => exact hold.stepSteps running.1 running.2
  case findCase value rest cases => exact hold.stepFindCase running.1 running.2
  case cases rest => exact hold.stepCases running
  case arrayItems done rest => exact hold.stepArrayItems running.1 running.2
  case collectArguments line callee done rest =>
    obtain ⟨here, called, doneWithin, restWithin⟩ := running
    exact hold.stepArguments here called doneWithin restWithin
  case resolve target use => exact hold.stepResolve running.1 running.2.1 running.2.2
  case use place use => exact hold.stepUse place running.1 running.2
  case call callee arguments line =>
    obtain ⟨called, given, onLine⟩ := running
    refine hold.stepCall called given onLine fun fault raises => ?_
    obtain here | ⟨rfl, rfl, callable⟩ := onLine
    · exact here
    · refine located fault (.call control callable ?_)
      rw [State.step, control]
      exact raises
  case invoke object name arguments line =>
    obtain ⟨called, given, here⟩ := running
    exact hold.stepInvoke given here
  case bindParameters parameters arguments body =>
    obtain ⟨defaults, given, parts⟩ := running
    exact hold.stepBind defaults given parts
  case dispatch => exact hold.stepDispatch
  case nextClick => exact hold.stepNextClick control
  case findSetup => exact hold.stepFindSetup
  case findLoop => exact hold.stepFindLoop
  case loopTop main => exact hold.stepLoopTop running
  case value value =>
    cases top : state.stack with
    | nil => exact hold.goto trivial
    | cons frame rest =>
        obtain ⟨within, popped⟩ := hold.popped top
        exact popped.stepValue within running
  case flow flow =>
    cases top : state.stack with
    | nil => exact hold.goto trivial
    | cons frame rest =>
        obtain ⟨within, popped⟩ := hold.popped top
        refine popped.stepFlow within running fun fault atTop raises => ?_
        subst atTop
        refine located fault (.jump control top ?_)
        rw [State.step_of_flow control top]
        exact raises
  case raise interrupt =>
    cases top : state.stack with
    | nil =>
        cases interrupt with
        | failed failure => exact hold.goto running
        | superseded => exact hold.goto trivial
    | cons frame rest =>
        obtain ⟨within, popped⟩ := hold.popped top
        have raised : (state.popped rest).control.Within limits := by
          change state.control.Within limits
          rw [control]
          exact running
        exact popped.stepRaise raised
  case suspended => exact ⟨hold, by rw [control]; trivial⟩
  case halted outcome => exact ⟨hold, by rw [control]; exact running⟩

end State.Within

namespace State

theorem hold_bindings : Native.bindings.Hold (Value.Within limits) := by
  intro entry member
  rcases List.mem_append.mp member with isBuiltin | isOther
  · obtain ⟨builtin, _, rfl⟩ := List.mem_map.mp isBuiltin
    trivial
  · simp only [List.mem_cons, List.not_mem_nil, or_false] at isOther
    rcases isOther with rfl | rfl | rfl | rfl | rfl | rfl | rfl | rfl | rfl <;> trivial

/-- At first the scope binds native functions only. -/
theorem hold_begin
    (config : Config)
    (program : Program)
    (host : Host) :
    (begin config program host).Hold limits where
  stack := List.forall_mem_singleton.mpr trivial
  scopes := .ofBindings hold_bindings
  world := ⟨.empty, by simp [Board.Hold, begin, Board.create]⟩

/-- A sketch begins within the limits, if its statements are within them. -/
theorem within_begin
    {program : Program}
    (config : Config)
    (host : Host)
    (parts : ∀ stmt ∈ program.body, stmt.Within limits) :
    (begin config program host).Within limits :=
  ⟨hold_begin config program host, parts⟩

/-- The host that polls has no part in the limits. -/
theorem within_attach
    {state : State}
    (within : state.Within limits)
    (host : Host) :
    (state.attach host).Within limits :=
  ⟨⟨within.hold.stack, within.hold.scopes,
    ⟨within.hold.world.heap, within.hold.world.board⟩⟩, within.control⟩

theorem within_wake
    {state : State}
    (within : state.Within limits)
    (host : Host) :
    (state.wake host).Within limits :=
  (within_attach within host).hold.give trivial

end State

end LedSketch.Machine
