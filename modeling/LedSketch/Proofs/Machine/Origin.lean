import LedSketch.Proofs.Machine.Transition
import LedSketch.Proofs.Machine.Values

namespace LedSketch.Machine

/-!
# Where the code of a run stands

What a run executes stands in the script, or in the body of a function that is declared in
it.  The frames above the call of the function tell which loops and switches of that body
are around the code, and each frame is given the kind of result that it waits for.
-/

open Script

/-- What a frame waits for. -/
inductive Kind where
  | value
  | completion
  deriving DecidableEq

/-- What the body belongs to that a run executes. -/
inductive Owner where
  | host
  | script
  | function (function : Function)

/-- The body of an owner; the host has no code. -/
def Owner.body
    (script : List Stmt) :
    Owner → List Stmt
  | .host => []
  | .script => script
  | .function running => running.body

/-- The kind of result that a frame takes. -/
def Frame.takes : Frame → Kind
  | .blockRest _ => .completion
  | .openScope => .completion
  | .loopStart _ => .completion
  | .loopBody _ => .completion
  | .caseRest _ => .completion
  | .activation _ => .completion
  | .topLevel => .completion
  | _ => .value

/-- The kind of result that a frame leads to. -/
def Frame.gives : Frame → Kind
  | .declaredValue _ _ => .completion
  | .discarded => .completion
  | .branchTest _ _ => .completion
  | .loopTest _ => .completion
  | .loopStep _ _ => .completion
  | .switchValue _ => .completion
  | .switchTest _ _ _ => .completion
  | .returnedValue => .completion
  | .defaultValue _ _ _ => .completion
  | .blockRest _ => .completion
  | .openScope => .completion
  | .loopStart _ => .completion
  | .loopBody _ => .completion
  | .caseRest _ => .completion
  | _ => .value

/-- The kind of result that a control leads to, if it leads to one. -/
def Control.kind? : Control → Option Kind
  | .exec _ => some .completion
  | .enterBlock _ => some .completion
  | .statements _ => some .completion
  | .declare _ => some .completion
  | .turn _ => some .completion
  | .steps _ _ => some .completion
  | .findCase _ _ _ => some .completion
  | .cases _ => some .completion
  | .bindParameters _ _ _ => some .completion
  | .flow _ => some .completion
  | .raise _ => none
  | .halted _ => none
  | _ => some .value

/-- Whether a frame belongs to the code of a body. -/
def Frame.isInner : Frame → Bool
  | .activation _ => false
  | frame => frame.isPlain

/-- Whether a frame belongs to what a run does for its host. -/
def Frame.isOuter : Frame → Bool
  | .topLevel => false
  | frame => !frame.isPlain

/-- The loops and switches of a body in which its code is executed. -/
def enclosureOf : List Frame → Enclosure
  | [] => .bare
  | .loopBody _ :: rest => (enclosureOf rest).loop
  | .caseRest _ :: rest => (enclosureOf rest).switch
  | frame :: rest => if frame.isInner then enclosureOf rest else .bare

section Code

variable (script : List Stmt) (owner : Owner) (around : Enclosure)

/-- A whole body that a function executes. -/
def Owner.Executes (body : List Stmt) : Prop :=
  around = .bare ∧ ∃ function, owner = .function function ∧ body = function.body

/-- The code of a frame stands in the body of an owner, within loops and switches. -/
def Frame.Stands : Frame → Prop
  | .branchTest whenTrue whenFalse =>
      Script.Stands (owner.body script) around whenTrue ∧
        ∀ stmt ∈ whenFalse, Script.Stands (owner.body script) around stmt
  | .loopTest loop => Script.Stands (owner.body script) around.loop loop.body
  | .loopStep loop _ => Script.Stands (owner.body script) around.loop loop.body
  | .switchValue cases =>
      ∀ case ∈ cases, StandsBlock (owner.body script) around.switch case.body
  | .switchTest _ rest cases =>
      (∀ case ∈ rest, StandsBlock (owner.body script) around.switch case.body) ∧
        ∀ case ∈ cases, StandsBlock (owner.body script) around.switch case.body
  | .defaultValue _ _ body => owner.Executes around body
  | .blockRest rest => ∀ stmt ∈ rest, Script.Stands (owner.body script) around stmt
  | .loopStart loop => Script.Stands (owner.body script) around.loop loop.body
  | .loopBody loop => Script.Stands (owner.body script) around.loop loop.body
  | .caseRest rest =>
      ∀ case ∈ rest, StandsBlock (owner.body script) around.switch case.body
  | _ => True

/-- The code of a control stands in the body of an owner, within loops and switches. -/
def Control.Stands : Control → Prop
  | .exec stmt => Script.Stands (owner.body script) around stmt
  | .enterBlock body =>
      StandsBlock (owner.body script) around body ∨ owner.Executes around body
  | .statements rest => ∀ stmt ∈ rest, Script.Stands (owner.body script) around stmt
  | .turn loop => Script.Stands (owner.body script) around.loop loop.body
  | .steps loop _ => Script.Stands (owner.body script) around.loop loop.body
  | .findCase _ rest all =>
      (∀ case ∈ rest, StandsBlock (owner.body script) around.switch case.body) ∧
        ∀ case ∈ all, StandsBlock (owner.body script) around.switch case.body
  | .cases rest => ∀ case ∈ rest, StandsBlock (owner.body script) around.switch case.body
  | .bindParameters _ _ body => owner.Executes around body
  | _ => True

end Code

/-- Frames that wait for a result of a kind, while code of an owner is executed. -/
inductive Sited (script : List Stmt) : Kind → Owner → List Frame → Prop where
  | bottom
      (kind : Kind) :
      Sited script kind .host []
  | topLevel :
      Sited script .completion .script [.topLevel]
  | activation
      {function : Function}
      {caller : Owner}
      {rest : List Frame}
      (depth : Nat)
      (declared : Declared script function)
      (below : Sited script .value caller rest) :
      Sited script .completion (.function function) (.activation depth :: rest)
  | outer
      {owner : Owner}
      {frame : Frame}
      {rest : List Frame}
      (isOuter : frame.isOuter = true)
      (below : Sited script .value owner rest) :
      Sited script .value .host (frame :: rest)
  | inner
      {kind : Kind}
      {owner : Owner}
      {frame : Frame}
      {rest : List Frame}
      (isInner : frame.isInner = true)
      (takes : frame.takes = kind)
      (stands : frame.Stands script owner (enclosureOf rest))
      (below : Sited script frame.gives owner rest) :
      Sited script kind owner (frame :: rest)

/-- A state in which the code and the frames fit together. -/
structure State.Placed
    (script : List Stmt)
    (state : State) :
    Prop where
  fits :
    ∃ kind owner,
      Sited script kind owner state.stack ∧
        (∀ wanted ∈ state.control.kind?, wanted = kind) ∧
          state.control.Stands script owner (enclosureOf state.stack)

/-- Only functions that are declared in the script. -/
def DeclaredIn
    (script : List Stmt) :
    Value → Prop
  | .function closure => Declared script closure.function
  | _ => True

/-- Values that are no functions are declared nowhere. -/
theorem concernsFunctions_declaredIn (script : List Stmt) :
    ConcernsFunctions (DeclaredIn script) := by
  intro value notFunction
  cases value with
  | function closure => exact (notFunction closure rfl).elim
  | _ => trivial

variable {script : List Stmt} {owner : Owner} {kind : Kind} {state : State}

/-- A function whose code is executed is declared in the script. -/
theorem Sited.declared
    {function : Function}
    {stack : List Frame}
    (sited : Sited script kind (.function function) stack) :
    Declared script function := by
  generalize isFunction : Owner.function function = owner at sited
  induction sited with
  | bottom | topLevel | outer => contradiction
  | activation depth declared below =>
      cases isFunction
      exact declared
  | inner isInner takes stands below inductionHypothesis =>
      exact inductionHypothesis isFunction

/-- What is below a frame waits for a result, too. -/
theorem Sited.exists_below
    {frame : Frame}
    {rest : List Frame}
    (sited : Sited script kind owner (frame :: rest)) :
    ∃ kind owner, Sited script kind owner rest := by
  cases sited with
  | topLevel => exact ⟨.completion, .host, .bottom _⟩
  | activation depth declared below => exact ⟨_, _, below⟩
  | outer isOuter below => exact ⟨_, _, below⟩
  | inner isInner takes stands below => exact ⟨_, _, below⟩

namespace Sited

/-- The run goes on for the frames with a control that leads to their kind of result. -/
theorem goto
    {control : Control}
    (sited : Sited script kind owner state.stack)
    (fits : control.kind? = some kind)
    (stands : control.Stands script owner (enclosureOf state.stack)) :
    (state.goto control).Placed script := by
  refine ⟨kind, owner, sited, ?_, stands⟩
  intro wanted isKind
  exact (Option.some.inj (fits.symm.trans isKind)).symm

/-- An interrupt fits all frames. -/
theorem stop
    (sited : Sited script kind owner state.stack)
    (interrupt : Interrupt) :
    (state.stop interrupt).Placed script :=
  ⟨kind, owner, sited, by rintro _ ⟨⟩, trivial⟩

/-- A run that has ended has nothing left to place. -/
theorem halt
    (sited : Sited script kind owner state.stack)
    (outcome : Outcome) :
    (state.goto (.halted outcome)).Placed script :=
  ⟨kind, owner, sited, by rintro _ ⟨⟩, trivial⟩

theorem withWorld
    (sited : Sited script kind owner state.stack)
    (world : World) :
    Sited script kind owner (state.withWorld world).stack :=
  sited

/-- The run goes on for one more frame. -/
theorem into
    {frame : Frame}
    {control : Control}
    (sited : Sited script frame.gives owner state.stack)
    (isInner : frame.isInner = true)
    (standsFrame : frame.Stands script owner (enclosureOf state.stack))
    (fits : control.kind? = some frame.takes)
    (stands : control.Stands script owner (enclosureOf (frame :: state.stack))) :
    (state.into frame control).Placed script := by
  have grown : Sited script frame.takes owner (state.push frame).stack :=
    .inner isInner rfl standsFrame sited
  exact grown.goto fits stands

/-- A result stands where its operator stood. -/
theorem giveOperation
    (sited : Sited script .value owner state.stack)
    (line : Nat)
    (computed : Except TypeFault Value) :
    (state.giveOperation line computed).Placed script := by
  cases computed with
  | ok value => exact sited.goto rfl trivial
  | error fault => exact sited.stop _

/-- The parts of an expression stand where it stood. -/
theorem stepEval
    (sited : Sited script .value owner state.stack)
    (expr : Expr) :
    (state.stepEval expr).Placed script := by
  cases expr with
  | int | float | text | bool | undefined => exact sited.goto rfl trivial
  | array | assign | update | await | index => exact sited.goto rfl trivial
  | unary | binary | logical | conditional | cast | member =>
      exact sited.into rfl trivial rfl trivial
  | name line name =>
      unfold State.stepEval
      dsimp only
      split
      · exact sited.goto rfl trivial
      · exact sited.stop _
  | call line callee arguments => cases callee <;> exact sited.into rfl trivial rfl trivial

/-- The parts of a statement stand inside of it. -/
theorem stepExec
    {stmt : Stmt}
    (sited : Sited script .completion owner state.stack)
    (stands : Stands (owner.body script) (enclosureOf state.stack) stmt) :
    (state.stepExec stmt).Placed script := by
  cases stmt with
  | declare | function | breaks | continues | empty => exact sited.goto rfl trivial
  | expr expr => exact sited.into rfl trivial rfl trivial
  | block body =>
      have below : Sited script .completion owner (state.withScopes state.scopes.push).stack :=
        sited
      exact below.into rfl trivial rfl (.inl (.block stands))
  | branch test whenTrue whenFalse =>
      refine sited.into rfl ⟨.whenTrue stands, ?_⟩ rfl trivial
      rintro stmt rfl
      exact .whenFalse stands
  | whileLoop test body => exact sited.goto rfl (Stands.whileLoop stands)
  | doLoop body test => exact sited.into rfl (Stands.doLoop stands) rfl (Stands.doLoop stands)
  | forLoop init test steps body =>
      have inLoop := Stands.forLoop stands
      have opened :
          Sited script .completion owner
            ((state.withScopes state.scopes.push).push .openScope).stack :=
        .inner rfl rfl trivial sited
      cases init with
      | nothing => exact opened.goto rfl inLoop
      | declare line declarators => exact opened.into rfl inLoop rfl trivial
      | expr expr =>
          have starting :
              Sited script .completion owner
                (((state.withScopes state.scopes.push).push .openScope).push
                  (.loopStart ⟨test, steps, body⟩)).stack :=
            .inner rfl rfl inLoop opened
          exact starting.into rfl trivial rfl trivial
  | switch discriminant cases =>
      exact sited.into rfl (fun case among => .case stands among) rfl trivial
  | returns line value =>
      cases value with
      | none => exact sited.goto rfl trivial
      | some expr => exact sited.into rfl trivial rfl trivial

theorem stepDeclare
    (sited : Sited script .completion owner state.stack)
    (declarators : List Declarator) :
    (state.stepDeclare declarators).Placed script := by
  unfold State.stepDeclare
  split
  · exact sited.goto rfl trivial
  · split
    · exact sited.into rfl trivial rfl trivial
    · exact Sited.goto sited rfl trivial

/-- The body of a loop stands inside of the loop. -/
theorem stepTurn
    {loop : Loop}
    (sited : Sited script .completion owner state.stack)
    (stands : Stands (owner.body script) (enclosureOf state.stack).loop loop.body) :
    (state.stepTurn loop).Placed script := by
  unfold State.stepTurn
  split
  · exact sited.into rfl stands rfl trivial
  · exact sited.into rfl stands rfl stands

theorem stepSteps
    {loop : Loop}
    (sited : Sited script .completion owner state.stack)
    (stands : Stands (owner.body script) (enclosureOf state.stack).loop loop.body)
    (rest : List Expr) :
    (state.stepSteps loop rest).Placed script := by
  cases rest with
  | nil => exact sited.goto rfl stands
  | cons expr rest => exact sited.into rfl stands rfl trivial

/-- The bodies of cases stand inside of their switch. -/
theorem enterCases
    {cases : List SwitchCase}
    (sited : Sited script .completion owner state.stack)
    (stands :
      ∀ case ∈ cases,
        StandsBlock (owner.body script) (enclosureOf state.stack).switch case.body) :
    (state.enterCases cases).Placed script := by
  unfold State.enterCases
  split
  · exact sited.goto rfl trivial
  · exact Sited.into sited rfl trivial rfl stands

/-- The case that is found is one of the switch. -/
theorem stepFindCase
    {rest cases : List SwitchCase}
    (sited : Sited script .completion owner state.stack)
    (value : Value)
    (standsRest :
      ∀ case ∈ rest,
        StandsBlock (owner.body script) (enclosureOf state.stack).switch case.body)
    (stands :
      ∀ case ∈ cases,
        StandsBlock (owner.body script) (enclosureOf state.stack).switch case.body) :
    (state.stepFindCase value rest cases).Placed script := by
  unfold State.stepFindCase
  split
  · exact sited.enterCases fun case member =>
      stands case ((fromDefault_suffix cases).subset member)
  · split
    · exact sited.into rfl ⟨standsRest, stands⟩ rfl trivial
    · exact sited.goto rfl ⟨(List.forall_mem_cons.mp standsRest).2, stands⟩

theorem stepCases
    {rest : List SwitchCase}
    (sited : Sited script .completion owner state.stack)
    (stands :
      ∀ case ∈ rest,
        StandsBlock (owner.body script) (enclosureOf state.stack).switch case.body) :
    (state.stepCases rest).Placed script := by
  cases rest with
  | nil => exact sited.goto rfl trivial
  | cons case rest =>
      obtain ⟨first, others⟩ := List.forall_mem_cons.mp stands
      exact sited.into rfl others rfl (.inl first)

theorem stepArrayItems
    (sited : Sited script .value owner state.stack)
    (done : List Value)
    (rest : List Expr) :
    (state.stepArrayItems done rest).Placed script := by
  cases rest with
  | nil => exact Sited.goto sited rfl trivial
  | cons item rest => exact sited.into rfl trivial rfl trivial

theorem stepArguments
    (sited : Sited script .value owner state.stack)
    (line : Nat)
    (callee : Callee)
    (done : List Value)
    (rest : List Expr) :
    (state.stepArguments line callee done rest).Placed script := by
  cases rest with
  | nil => cases callee <;> exact sited.goto rfl trivial
  | cons argument rest => exact sited.into rfl trivial rfl trivial

theorem stepResolve
    (sited : Sited script .value owner state.stack)
    (target : Expr)
    (use : PlaceUse) :
    (state.stepResolve target use).Placed script := by
  unfold State.stepResolve
  split
  · exact sited.goto rfl trivial
  · exact sited.into rfl trivial rfl trivial
  · exact sited.stop _

theorem storeAndGive
    (sited : Sited script .value owner state.stack)
    (line : Nat)
    (place : Place)
    (stored given : Value) :
    (state.storeAndGive line place stored given).Placed script := by
  unfold State.storeAndGive State.writePlace
  rcases place with name | ⟨id, position⟩
  · dsimp only
    cases state.scopes.set? name stored with
    | none => exact sited.stop _
    | some scopes => exact Sited.goto sited rfl trivial
  · exact Sited.goto sited rfl trivial

theorem finishAssign
    (sited : Sited script .value owner state.stack)
    (line : Nat)
    (op : Option BinaryOp)
    (place : Place)
    (value : Value) :
    (state.finishAssign line op place value).Placed script := by
  unfold State.finishAssign
  split
  · exact sited.storeAndGive ..
  · split
    · exact sited.stop _
    · split
      · exact sited.stop _
      · exact sited.storeAndGive ..

theorem finishUpdate
    (sited : Sited script .value owner state.stack)
    (line : Nat)
    (step : Script.Step)
    (fixity : Fixity)
    (place : Place) :
    (state.finishUpdate line step fixity place).Placed script := by
  unfold State.finishUpdate
  split
  · exact sited.stop _
  · split
    · exact sited.stop _
    · exact sited.storeAndGive ..

theorem stepUse
    (sited : Sited script .value owner state.stack)
    (place : Place)
    (use : PlaceUse) :
    (state.stepUse place use).Placed script := by
  cases use with
  | read line =>
      unfold State.stepUse
      dsimp only
      split
      · exact sited.goto rfl trivial
      · exact sited.stop _
  | assign line op value => exact sited.into rfl trivial rfl trivial
  | update line step fixity => exact sited.finishUpdate ..

/-- The body of a function stands where the function is declared. -/
theorem enterFunction
    {closure : Closure}
    (sited : Sited script .value owner state.stack)
    (declared : Declared script closure.function)
    (arguments : List Value)
    (line : Nat) :
    (state.enterFunction closure arguments line).Placed script := by
  unfold State.enterFunction
  split
  · exact sited.stop _
  · split
    · have entered :
          Sited script .completion (.function closure.function)
            (.activation state.depth :: state.stack) :=
        .activation state.depth declared sited
      exact ⟨_, _, entered, by rintro _ ⟨⟩; rfl, rfl, _, rfl, rfl⟩
    · exact sited.stop _

/-- A native call stands where it is made. -/
theorem callNative
    (sited : Sited script .value owner state.stack)
    (builtin : Builtin)
    (arguments : List Value)
    (line : Nat) :
    (state.callNative builtin arguments line).Placed script := by
  unfold State.callNative
  split
  · exact Sited.goto sited rfl trivial
  · have resting : Sited script .value .host (.delayEnd line :: state.stack) :=
      .outer rfl sited
    exact ⟨_, _, resting, by rintro _ ⟨⟩; rfl, trivial⟩
  · next world failed => exact (sited.withWorld world).stop _

/-- A call enters a function that the script declares. -/
theorem stepCall
    {callee : Value}
    (sited : Sited script .value owner state.stack)
    (declared : DeclaredIn script callee)
    (arguments : List Value)
    (line : Nat) :
    (state.stepCall callee arguments line).Placed script := by
  cases callee with
  | function closure => exact sited.enterFunction declared arguments line
  | builtin builtin => exact sited.callNative ..
  | _ => exact sited.stop _

theorem stepInvoke
    (sited : Sited script .value owner state.stack)
    (object : Value)
    (name : String)
    (arguments : List Value)
    (line : Nat) :
    (state.stepInvoke object name arguments line).Placed script := by
  cases object with
  | object handle =>
      unfold State.stepInvoke
      dsimp only
      split
      · exact Sited.goto sited rfl trivial
      · next world failed => exact (sited.withWorld world).stop _
  | _ => exact sited.stop _

/-- The body is executed when all parameters are bound. -/
theorem stepBind
    {body : List Stmt}
    (sited : Sited script .completion owner state.stack)
    (parameters : List Parameter)
    (arguments : List Value)
    (executes : owner.Executes (enclosureOf state.stack) body) :
    (state.stepBind parameters arguments body).Placed script := by
  unfold State.stepBind
  split
  · exact sited.goto rfl (.inr executes)
  · split
    · exact Sited.goto sited rfl executes
    · split
      · exact sited.into rfl executes rfl trivial
      · exact Sited.goto sited rfl executes

theorem stepDispatch (sited : Sited script .value owner state.stack) :
    state.stepDispatch.Placed script := by
  unfold State.stepDispatch
  split
  · exact sited.goto rfl trivial
  · exact ⟨_, _, sited, by rintro _ ⟨⟩; rfl, trivial⟩

/-- Handlers and calls for the host are made from frames without code. -/
theorem call
    {frame : Frame}
    (sited : Sited script .value owner state.stack)
    (isOuter : frame.isOuter = true)
    (control : Control)
    (fits : control.kind? = some .value)
    (stands : control.Stands script .host .bare) :
    (state.into frame control).Placed script := by
  have grown : Sited script .value .host (state.push frame).stack := .outer isOuter sited
  have bare : enclosureOf (state.push frame).stack = .bare := by
    cases frame <;> first | rfl | contradiction
  exact grown.goto fits (bare ▸ stands)

/-- The handler of a click stands in no code. -/
theorem stepNextClick
    (sited : Sited script .value owner state.stack)
    (selecting : state.control = .nextClick) :
    state.stepNextClick.Placed script := by
  unfold State.stepNextClick
  dsimp only
  split
  · exact ⟨_, _, sited, by rintro _ ⟨⟩; rfl, trivial⟩
  · split
    -- A click of no button is dropped, and the next one is selected.
    · refine ⟨_, _, sited, ?_, ?_⟩
      · change ∀ wanted ∈ state.control.kind?, _
        rw [selecting]
        rintro _ ⟨⟩
        rfl
      · change state.control.Stands script owner _
        rw [selecting]
        trivial
    · split
      · exact (sited.withWorld _).call rfl _ rfl trivial
      · exact ⟨_, _, sited, by rintro _ ⟨⟩, trivial⟩

theorem stepFindSetup (sited : Sited script .value owner state.stack) :
    state.stepFindSetup.Placed script := by
  unfold State.stepFindSetup
  split
  · exact sited.call rfl _ rfl trivial
  · exact sited.goto rfl trivial

theorem stepFindLoop (sited : Sited script .value owner state.stack) :
    state.stepFindLoop.Placed script := by
  unfold State.stepFindLoop
  split
  · exact sited.goto rfl trivial
  · exact sited.halt _

/-- The calls of `loop` stand in no code. -/
theorem stepLoopTop
    (sited : Sited script .value owner state.stack)
    (main : Value) :
    (state.stepLoopTop main).Placed script := by
  unfold State.stepLoopTop
  split
  · split
    · exact sited.halt _
    · exact sited.call rfl _ rfl trivial
  · exact sited.stop _

theorem stepValue_inner
    {frame : Frame}
    (sited : Sited script frame.gives owner state.stack)
    (isInner : frame.isInner = true)
    (takes : frame.takes = .value)
    (stands : frame.Stands script owner (enclosureOf state.stack))
    (value : Value) :
    (state.stepValue value frame).Placed script := by
  cases frame with
  | unaryOperand | rightOperand | castOperand => exact sited.giveOperation ..
  | leftOperand | indexedObject =>
      have below : Sited script .value owner state.stack := sited
      exact Sited.into below rfl trivial rfl trivial
  | logicalLeft op right =>
      have below : Sited script .value owner state.stack := sited
      unfold State.stepValue
      dsimp only
      split
      · exact below.goto rfl trivial
      · exact below.goto rfl trivial
      · exact Sited.into below rfl trivial rfl trivial
  | assignedValue line op place => exact sited.finishAssign ..
  | memberObject line name =>
      unfold State.stepValue
      dsimp only
      split
      · exact sited.goto rfl trivial
      · exact sited.stop _
  | indexPosition line object use =>
      unfold State.stepValue
      dsimp only
      split
      · exact sited.stop _
      · split
        · exact sited.goto rfl trivial
        · exact sited.stop _
  | declaredValue name rest => exact Sited.goto sited rfl trivial
  | branchTest whenTrue whenFalse =>
      obtain ⟨first, second⟩ := stands
      unfold State.stepValue
      dsimp only
      split
      · exact sited.goto rfl first
      · cases whenFalse with
        | none => exact sited.goto rfl trivial
        | some stmt => exact sited.goto rfl (second stmt rfl)
  | loopTest loop =>
      have below : Sited script .completion owner state.stack := sited
      unfold State.stepValue
      dsimp only
      split
      · exact Sited.into below rfl stands rfl stands
      · exact below.goto rfl trivial
  | loopStep loop rest => exact sited.goto rfl stands
  | switchValue cases => exact sited.goto rfl ⟨stands, stands⟩
  | switchTest wanted rest cases =>
      obtain ⟨first, second⟩ := stands
      unfold State.stepValue
      dsimp only
      split
      · exact sited.enterCases first
      · refine sited.goto rfl ⟨?_, second⟩
        exact fun case member => first case (List.mem_of_mem_drop member)
  | defaultValue name rest body => exact Sited.goto sited rfl stands
  | arrayItem | logicalRight | conditionalTest | callTarget | methodObject | callArgument
  | discarded | returnedValue => exact sited.goto rfl trivial
  | blockRest | openScope | loopStart | loopBody | caseRest => contradiction
  | handlerCall | delayEnd | setupCall | dispatchBeforeLoop | loopCall | iterationEnd
  | activation | topLevel => contradiction

theorem stepValue_outer
    {frame : Frame}
    (sited : Sited script .value owner state.stack)
    (isOuter : frame.isOuter = true)
    (value : Value) :
    (state.stepValue value frame).Placed script := by
  cases frame with
  | handlerCall | setupCall | iterationEnd => exact sited.goto rfl trivial
  | delayEnd line =>
      unfold State.stepValue
      dsimp only
      split
      · exact sited.goto rfl trivial
      · exact sited.stop _
  | dispatchBeforeLoop main => exact sited.call rfl _ rfl trivial
  | loopCall main =>
      have resting : Sited script .value .host (.iterationEnd main :: state.stack) :=
        .outer rfl sited
      exact ⟨_, _, resting, by rintro _ ⟨⟩; rfl, trivial⟩
  | _ => contradiction

theorem stepFlow_inner
    {frame : Frame}
    (sited : Sited script frame.gives owner state.stack)
    (isInner : frame.isInner = true)
    (takes : frame.takes = .completion)
    (stands : frame.Stands script owner (enclosureOf state.stack))
    (flow : Flow) :
    (state.stepFlow flow frame).Placed script := by
  cases frame with
  | blockRest rest =>
      cases flow with
      | normal => exact sited.goto rfl stands
      | returned | broke | continued => exact sited.goto rfl trivial
  | openScope => exact Sited.goto sited rfl trivial
  | loopStart loop =>
      cases flow with
      | normal => exact sited.goto rfl stands
      | returned | broke | continued => exact sited.goto rfl trivial
  | loopBody loop =>
      cases flow with
      | normal | continued => exact sited.goto rfl stands
      | returned | broke => exact sited.goto rfl trivial
  | caseRest rest =>
      cases flow with
      | normal => exact sited.goto rfl stands
      | returned | broke | continued => exact sited.goto rfl trivial
  | activation | topLevel => contradiction
  | _ => contradiction

theorem stepFlow_topLevel
    (sited : Sited script .value owner state.stack)
    (flow : Flow) :
    (state.stepFlow flow .topLevel).Placed script := by
  cases flow with
  | normal => exact sited.goto rfl trivial
  | returned | broke | continued => exact sited.stop _

end Sited

namespace State.Placed

/-- A step executes code that stands where the run has come to. -/
theorem step
    (placed : state.Placed script)
    (holds : state.Holds (DeclaredIn script)) :
    state.step.Placed script := by
  obtain ⟨kind, owner, sited, fits, stands⟩ := placed
  have same
      {control : Control}
      {wanted : Kind}
      (isControl : state.control = control)
      (isKind : control.kind? = some wanted) :
      Sited script wanted owner state.stack := by
    rw [fits wanted (isControl ▸ isKind)]
    exact sited
  unfold State.step
  cases control : state.control <;> rw [control] at stands
  case eval expr => exact (same control rfl).stepEval expr
  case exec stmt => exact (same control rfl).stepExec stands
  case enterBlock body =>
    have here := same control rfl
    have each : ∀ stmt ∈ body, Stands (owner.body script) (enclosureOf state.stack) stmt := by
      obtain standing | ⟨bare, function, rfl, rfl⟩ := stands
      · exact standing.stands
      · rw [bare]
        exact fun stmt member => .top member
    exact ⟨_, _, here, by rintro _ ⟨⟩; rfl, each⟩
  case statements rest =>
    cases rest with
    | nil => exact (same control rfl).goto rfl trivial
    | cons stmt rest =>
        obtain ⟨first, others⟩ := List.forall_mem_cons.mp stands
        exact (same control rfl).into rfl others rfl first
  case declare declarators => exact (same control rfl).stepDeclare declarators
  case turn loop => exact (same control rfl).stepTurn stands
  case steps loop rest => exact (same control rfl).stepSteps stands rest
  case findCase value rest cases =>
    exact (same control rfl).stepFindCase value stands.1 stands.2
  case cases rest => exact (same control rfl).stepCases stands
  case arrayItems done rest => exact (same control rfl).stepArrayItems done rest
  case collectArguments line callee done rest =>
    exact (same control rfl).stepArguments line callee done rest
  case resolve target use => exact (same control rfl).stepResolve target use
  case use place use => exact (same control rfl).stepUse place use
  case call callee arguments line =>
    have kept := holds.control
    rw [control] at kept
    exact (same control rfl).stepCall (kept callee List.mem_cons_self) arguments line
  case invoke object name arguments line =>
    exact (same control rfl).stepInvoke object name arguments line
  case bindParameters parameters arguments body =>
    exact (same control rfl).stepBind parameters arguments stands
  case dispatch => exact (same control rfl).stepDispatch
  case nextClick => exact (same control rfl).stepNextClick control
  case findSetup => exact (same control rfl).stepFindSetup
  case findLoop => exact (same control rfl).stepFindLoop
  case loopTop main => exact (same control rfl).stepLoopTop main
  case value value =>
    have here := same control rfl
    cases top : state.stack with
    | nil => exact here.halt _
    | cons frame rest =>
        rw [top] at here
        cases here with
        | outer isOuter below =>
            exact Sited.stepValue_outer below isOuter value
        | inner isInner takes stands below =>
            exact Sited.stepValue_inner below isInner takes stands value
  case flow flow =>
    have here := same control rfl
    cases top : state.stack with
    | nil => exact here.halt _
    | cons frame rest =>
        rw [top] at here
        cases here with
        | topLevel =>
            exact Sited.stepFlow_topLevel (.bottom _) flow
        | activation depth declared below => exact ⟨_, _, below, by rintro _ ⟨⟩; rfl, trivial⟩
        | inner isInner takes stands below =>
            exact Sited.stepFlow_inner below isInner takes stands flow
  case raise interrupt =>
    cases top : state.stack with
    | nil => exact sited.halt _
    | cons frame rest =>
        rw [top] at sited
        obtain ⟨kind, owner, below⟩ := sited.exists_below
        have raised : ((state.popped rest).stepRaise frame).control = .raise interrupt := by
          cases frame <;> exact control
        have left : ((state.popped rest).stepRaise frame).stack = rest := by
          cases frame <;> rfl
        change ((state.popped rest).stepRaise frame).Placed script
        refine ⟨kind, owner, ?_, ?_, ?_⟩
        · rw [left]
          exact below
        · rw [raised]
          rintro _ ⟨⟩
        · rw [raised]
          trivial
  case suspended =>
    exact ⟨_, _, sited, fits, by rw [control]; trivial⟩
  case halted outcome =>
    exact ⟨_, _, sited, fits, by rw [control]; trivial⟩

theorem attach
    (placed : state.Placed script)
    (host : Host) :
    (state.attach host).Placed script :=
  ⟨placed.fits⟩

theorem wake
    (placed : state.Placed script)
    (resting : state.control = .suspended)
    (host : Host) :
    (state.wake host).Placed script := by
  obtain ⟨kind, owner, sited, fits, stands⟩ := placed
  rw [resting] at fits
  exact ⟨kind, owner, sited, fits, trivial⟩

/-- The functions that a block declares stand in the body that the block stands in. -/
theorem declared_of_hoists
    {closure : Closure}
    (placed : state.Placed script)
    (hoists : state.Hoists closure) :
    Declared script closure.function := by
  obtain ⟨kind, owner, sited, fits, stands⟩ := placed
  obtain ⟨body, entering, member⟩ := hoists.declared
  rw [entering] at stands
  have standing :
      ∃ around, Stands (owner.body script) around closure.function.declaration := by
    obtain inBody | ⟨bare, function, rfl, rfl⟩ := stands
    · exact ⟨_, inBody.stands _ member⟩
    · exact ⟨.bare, .top member⟩
  obtain ⟨around, standing⟩ := standing
  cases owner with
  | host => exact (standing.body_ne_nil rfl).elim
  | script => exact .here standing
  | function outer => exact .inside sited.declared standing

end State.Placed

/-- A run is about to enter the script. -/
structure State.Entering
    (script : List Stmt)
    (state : State) :
    Prop where
  control : state.control = .enterBlock script
  stack : state.stack = [.topLevel]
  outermost : state.scopes.current = Scopes.globalId

/-- A run of which all code comes from a script. -/
structure State.Runs
    (script : List Stmt)
    (state : State) :
    Prop where
  origin : state.Entering script ∨ state.Placed script
  values : state.Holds (DeclaredIn script)

namespace State.Entering

/-- The step that enters a script. -/
theorem step (entering : state.Entering script) : state.step.Placed script := by
  have sited : Sited script .completion .script state.stack := by
    rw [entering.stack]
    exact .topLevel
  have bare : enclosureOf state.stack = .bare := by
    rw [entering.stack]
    rfl
  unfold State.step
  rw [entering.control]
  refine ⟨_, _, sited, by rintro _ ⟨⟩; rfl, ?_⟩
  change ∀ stmt ∈ script, Stands script (enclosureOf state.stack) stmt
  rw [bare]
  exact fun stmt member => .top member

theorem declared_of_hoists
    {closure : Closure}
    (entering : state.Entering script)
    (hoists : state.Hoists closure) :
    Declared script closure.function := by
  obtain ⟨body, entersBody, member⟩ := hoists.declared
  cases entering.control.symm.trans entersBody
  exact .here (.top member)

end State.Entering

namespace State.Runs

theorem step (runs : state.Runs script) : state.step.Runs script := by
  have plain := concernsFunctions_declaredIn script
  obtain ⟨origin, values⟩ := runs
  obtain entering | placed := origin
  · exact ⟨.inr entering.step,
      values.step plain fun closure hoists => entering.declared_of_hoists hoists⟩
  · exact ⟨.inr (placed.step values),
      values.step plain fun closure hoists => placed.declared_of_hoists hoists⟩

/-- A run that is not about to enter the script has its code in place. -/
theorem placed
    (runs : state.Runs script)
    (other : ∀ body, state.control ≠ .enterBlock body) :
    state.Placed script :=
  runs.origin.resolve_left fun entering => other _ entering.control

theorem attach
    (runs : state.Runs script)
    (host : Host) :
    (state.attach host).Runs script :=
  ⟨runs.origin.imp (fun entering => ⟨entering.control, entering.stack, entering.outermost⟩)
    (·.attach host), runs.values.attach host⟩

theorem wake
    (runs : state.Runs script)
    (resting : state.control = .suspended)
    (host : Host) :
    (state.wake host).Runs script := by
  have placed := runs.placed (by rw [resting]; exact fun _ => Control.noConfusion)
  exact ⟨.inr (placed.wake resting host),
    runs.values.wake (concernsFunctions_declaredIn script) host⟩

theorem begin
    (config : Config)
    (program : Program)
    (host : Host) :
    (State.begin config program host).Runs program.body :=
  ⟨.inl ⟨rfl, rfl, rfl⟩,
    .begin (concernsFunctions_declaredIn _) (fun _ => trivial) config program host⟩

end State.Runs

end LedSketch.Machine
