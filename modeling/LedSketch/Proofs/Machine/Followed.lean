import LedSketch.Proofs.Machine.Anchored
import LedSketch.Proofs.Machine.Seats
import LedSketch.Proofs.Machine.Values
import LedSketch.Proofs.Native.Renumbering
import LedSketch.Proofs.Script.FollowedScopes
import LedSketch.Simulation.Run

namespace LedSketch.Machine

/-!
# Followed runs

A run is followed by another one with other numbers for its scopes and for the births of its
functions, and with scopes that follow its own.  Each step of the one is a step of the
other, which leads to states that follow again.
-/

open Script

section Definitions

variable (numbers : Renumbering)

/-- A completion whose value has other numbers. -/
def Flow.renumbered : Flow → Flow
  | .returned value => .returned (value.renumbered numbers)
  | flow => flow

/-- A callee with other numbers. -/
def Callee.renumbered : Callee → Callee
  | .function value => .function (value.renumbered numbers)
  | .method object name => .method (object.renumbered numbers) name

/-- A frame whose values have other numbers. -/
def Frame.renumbered : Frame → Frame
  | .arrayItem done rest => .arrayItem (done.map (Value.renumbered numbers)) rest
  | .rightOperand line op left => .rightOperand line op (left.renumbered numbers)
  | .callArgument line callee done rest =>
      .callArgument line (callee.renumbered numbers) (done.map (Value.renumbered numbers)) rest
  | .indexPosition line object use => .indexPosition line (object.renumbered numbers) use
  | .switchTest value rest cases => .switchTest (value.renumbered numbers) rest cases
  | .dispatchBeforeLoop main => .dispatchBeforeLoop (main.renumbered numbers)
  | .loopCall main => .loopCall (main.renumbered numbers)
  | .iterationEnd main => .iterationEnd (main.renumbered numbers)
  | frame => frame

/-- A control whose values have other numbers. -/
def Control.renumbered : Control → Control
  | .findCase wanted rest all => .findCase (wanted.renumbered numbers) rest all
  | .arrayItems done rest => .arrayItems (done.map (Value.renumbered numbers)) rest
  | .collectArguments line callee done rest =>
      .collectArguments line (callee.renumbered numbers) (done.map (Value.renumbered numbers)) rest
  | .call callee arguments line =>
      .call (callee.renumbered numbers) (arguments.map (Value.renumbered numbers)) line
  | .invoke object name arguments line =>
      .invoke (object.renumbered numbers) name (arguments.map (Value.renumbered numbers)) line
  | .bindParameters parameters arguments body =>
      .bindParameters parameters (arguments.map (Value.renumbered numbers)) body
  | .loopTop main => .loopTop (main.renumbered numbers)
  | .value result => .value (result.renumbered numbers)
  | .flow ending => .flow (ending.renumbered numbers)
  | control => control

/-- A state with other numbers for its scopes and for the births of its functions. -/
def State.renumbered (state : State) : State :=
  { state with
    control := state.control.renumbered numbers
    stack := state.stack.map (Frame.renumbered numbers)
    scopes := state.scopes.renumbered numbers
    world := state.world.renumbered numbers
    nextBirth := numbers.birth state.nextBirth }

/-- The numbers that are given next are followed by the numbers that are given next. -/
structure State.Ahead (state : State) : Prop where
  scope : numbers.scope (state.scopes.next + 1) = numbers.scope state.scopes.next + 1
  birth : numbers.birth (state.nextBirth + 1) = numbers.birth state.nextBirth + 1

/-- A state that differs from another in its numbers, and has scopes that follow. -/
def State.Follows
    (parting : Option Parting)
    (state other : State) :
    Prop :=
  ∃ scopes,
    Scopes.Follows numbers parting state.scopes scopes ∧
      other = (state.renumbered numbers).withScopes scopes

end Definitions

/-- Whether the step with a control declares something in the innermost scope. -/
def Control.declares : Control → Bool
  | .enterBlock _ => true
  | .declare _ => true
  | .bindParameters _ _ _ => true
  | _ => false

/-- Whether the value that a frame takes is declared in the innermost scope. -/
def Frame.declares : Frame → Bool
  | .declaredValue _ _ => true
  | .defaultValue _ _ _ => true
  | _ => false

/-- The next step may declare something in the innermost scope, or close it. -/
def State.Touches (state : State) : Prop :=
  state.control.declares = true ∨
    ∃ frame ∈ state.stack.head?, frame.declares = true ∨ frame.closes = true

variable {numbers : Renumbering} {parting : Option Parting}

/-- A completed statement has a renumbered value. -/
theorem Flow.value_renumbered (flow : Flow) :
    (flow.renumbered numbers).value = flow.value.renumbered numbers := by
  cases flow <;> rfl

@[simp] theorem Control.isResult_renumbered (control : Control) :
    (control.renumbered numbers).isResult = control.isResult := by
  cases control <;> rfl

theorem Control.suspended_renumbered (control : Control) :
    control.renumbered numbers = .suspended ↔ control = .suspended := by
  cases control <;> simp [renumbered]

/-- Only arrays and texts have a member, their length, which has no scope. -/
theorem memberValue_renumbered
    (heap : Heap)
    (name : String)
    (object : Value) :
    memberValue (heap.renumbered numbers) name (object.renumbered numbers) =
      memberValue heap name object := by
  cases object with
  | array id =>
      unfold memberValue Value.renumbered
      dsimp only
      rw [Heap.length_renumbered]
  | _ => rfl

/-- Elements are found by the numbers of arrays, which stay as they are. -/
theorem elementPlace_renumbered
    (heap : Heap)
    (object : Value)
    (position : Int64) :
    elementPlace (heap.renumbered numbers) (object.renumbered numbers) position =
      elementPlace heap object position := by
  cases object with
  | array id =>
      unfold elementPlace Value.renumbered
      dsimp only
      rw [Heap.length_renumbered]
  | _ => rfl

/-- The functions of a block are declared in scopes that follow, with the birth that follows. -/
theorem follows_hoist
    {scopes other : Scopes}
    (follows : Scopes.Follows numbers parting scopes other)
    (inside : scopes.Inside parting)
    (birth : Nat)
    (body : List Stmt) :
    Scopes.Follows numbers parting
      (hoist birth body scopes)
      (hoist (numbers.birth birth) body other) := by
  induction body generalizing scopes other with
  | nil => exact follows
  | cons stmt rest inductionHypothesis =>
      cases stmt with
      | function line name parameters body =>
          unfold hoist
          dsimp only
          rw [follows.current]
          have declared := follows.declare inside name
            (.function ⟨⟨line, name, parameters, body⟩, scopes.current, birth⟩)
          refine inductionHypothesis declared ?_
          intro parted isParted
          have sameSize := congrArg List.length (Scopes.ids_declare scopes name
            (.function ⟨⟨line, name, parameters, body⟩, scopes.current, birth⟩))
          unfold Scopes.ids at sameSize
          rw [List.length_map, List.length_map] at sameSize
          rw [sameSize]
          exact inside parted isParted
      | _ => exact inductionHypothesis follows inside

namespace State.Follows

section Steps

variable {state other : State} (follows : state.Follows numbers parting other)

include follows

/-- What is done next is the same up to the numbers. -/
theorem control : other.control = state.control.renumbered numbers := by
  obtain ⟨scopes, same, rfl⟩ := follows
  rfl

/-- What is left to do is the same up to the numbers. -/
theorem stack : other.stack = state.stack.map (Frame.renumbered numbers) := by
  obtain ⟨scopes, same, rfl⟩ := follows
  rfl

/-- The open scopes follow each other. -/
theorem scopes : Scopes.Follows numbers parting state.scopes other.scopes := by
  obtain ⟨scopes, same, rfl⟩ := follows
  exact same

/-- Arrays and board are the same up to the numbers. -/
theorem world : other.world = state.world.renumbered numbers := by
  obtain ⟨scopes, same, rfl⟩ := follows
  rfl

/-- Both are of the same run. -/
theorem live : other.live = state.live := by
  obtain ⟨scopes, same, rfl⟩ := follows
  rfl

/-- Whoever polls, states go on to follow each other. -/
theorem wake (host : Host) : (state.wake host).Follows numbers parting (other.wake host) := by
  obtain ⟨scopes, same, rfl⟩ := follows
  exact ⟨scopes, same, rfl⟩

theorem popped (rest : List Frame) :
    (state.popped rest).Follows numbers parting
      (other.popped (rest.map (Frame.renumbered numbers))) := by
  obtain ⟨scopes, same, rfl⟩ := follows
  exact ⟨scopes, same, rfl⟩

theorem goto (control : Control) :
    (state.goto control).Follows numbers parting (other.goto (control.renumbered numbers)) := by
  obtain ⟨scopes, same, rfl⟩ := follows
  exact ⟨scopes, same, rfl⟩

theorem into
    (frame : Frame)
    (control : Control) :
    (state.into frame control).Follows numbers parting
      (other.into (frame.renumbered numbers) (control.renumbered numbers)) := by
  obtain ⟨scopes, same, rfl⟩ := follows
  exact ⟨scopes, same, rfl⟩

/-- A value is given on, with the scopes of its functions renumbered. -/
theorem give (value : Value) :
    (state.give value).Follows numbers parting (other.give (value.renumbered numbers)) :=
  follows.goto (.value value)

/-- A value that has no numbers is the same in both runs. -/
theorem giveSame
    {value : Value}
    (fixed : value.renumbered numbers = value) :
    (state.give value).Follows numbers parting (other.give value) := by
  have given := follows.give value
  rwa [fixed] at given

/-- An operator gives the same result, as no function comes out of one. -/
theorem giveOperation
    {computed : Except TypeFault Value}
    (line : Nat)
    (fixed : Yields (fun value => value.renumbered numbers = value) computed) :
    (state.giveOperation line computed).Follows numbers parting
      (other.giveOperation line computed) := by
  cases computed with
  | ok value => exact follows.giveSame (fixed value rfl)
  | error fault => exact follows.goto _

theorem withWorld (world : World) :
    (state.withWorld world).Follows numbers parting
      (other.withWorld (world.renumbered numbers)) := by
  obtain ⟨scopes, same, rfl⟩ := follows
  exact ⟨scopes, same, rfl⟩

/-- What the host is told is the same. -/
theorem withHost (host : Host) :
    (state.withWorld { state.world with host }).Follows numbers parting
      (other.withWorld { other.world with host }) := by
  obtain ⟨scopes, same, rfl⟩ := follows
  exact ⟨scopes, same, rfl⟩

/-- Both declare the variable, where the parting scopes are not open any more. -/
theorem declare
    (inside : state.scopes.Inside parting)
    (name : String)
    (value : Value) :
    (state.withScopes (state.scopes.declare name value)).Follows numbers parting
      (other.withScopes (other.scopes.declare name (value.renumbered numbers))) := by
  obtain ⟨scopes, same, rfl⟩ := follows
  exact ⟨_, same.declare inside name value, rfl⟩

/-- The scopes that are opened get numbers that are ahead. -/
theorem openScope (ahead : state.Ahead numbers) :
    (state.withScopes state.scopes.push).Follows numbers parting
      (other.withScopes other.scopes.push) := by
  obtain ⟨scopes, same, rfl⟩ := follows
  exact ⟨_, same.push ahead.scope, rfl⟩

/-- A scope inside of the parting one is closed in both. -/
theorem closeScope (inside : state.scopes.Inside parting) :
    (state.withScopes state.scopes.pop).Follows numbers parting
      (other.withScopes other.scopes.pop) := by
  obtain ⟨scopes, same, rfl⟩ := follows
  exact ⟨_, same.pop inside, rfl⟩

theorem stepEval (expr : Expr) :
    (state.stepEval expr).Follows numbers parting (other.stepEval expr) := by
  cases expr with
  | name line name =>
      unfold State.stepEval
      dsimp only
      rw [follows.scopes.get?]
      cases state.scopes.get? name with
      | some value => exact follows.give value
      | none => exact follows.goto _
  | unary | binary | logical | conditional | cast | member => exact follows.into _ _
  | call line callee arguments => cases callee <;> exact follows.into _ _
  | int | float | text | bool | undefined => exact follows.give _
  | array | assign | update | await | index => exact follows.goto _

/-- Blocks and loops open scopes with numbers that are ahead. -/
theorem stepExec
    (ahead : state.Ahead numbers)
    (stmt : Stmt) :
    (state.stepExec stmt).Follows numbers parting (other.stepExec stmt) := by
  cases stmt with
  | expr | branch | doLoop | switch => exact follows.into _ _
  | block body => exact (follows.openScope ahead).into _ _
  | forLoop init test steps body =>
      obtain ⟨scopes, same, rfl⟩ := follows
      cases init <;> exact ⟨_, same.push ahead.scope, rfl⟩
  | returns line value =>
      cases value with
      | none => exact follows.goto _
      | some expr => exact follows.into _ _
  | declare | function | whileLoop | breaks | continues | empty => exact follows.goto _

theorem stepDeclare
    {declarators : List Declarator}
    (inside : state.scopes.Inside parting) :
    (state.stepDeclare declarators).Follows numbers parting (other.stepDeclare declarators) := by
  rcases declarators with _ | ⟨⟨name, _ | init⟩, rest⟩
  · exact follows.goto _
  · exact (follows.declare inside name .undefined).goto _
  · exact follows.into _ _

theorem enterCases
    (ahead : state.Ahead numbers)
    (cases : List SwitchCase) :
    (state.enterCases cases).Follows numbers parting (other.enterCases cases) := by
  cases cases with
  | nil => exact follows.goto _
  | cons case rest => exact (follows.openScope ahead).into _ _

/-- Numbers have no part in which case is run. -/
theorem stepFindCase
    (ahead : state.Ahead numbers)
    (value : Value)
    (rest all : List SwitchCase) :
    (state.stepFindCase value rest all).Follows numbers parting
      (other.stepFindCase (value.renumbered numbers) rest all) := by
  cases rest with
  | nil => exact follows.enterCases ahead _
  | cons case others =>
      unfold State.stepFindCase
      dsimp only
      split
      · exact follows.into (.switchTest value (case :: others) all) _
      · exact follows.goto (.findCase value others all)

theorem stepArrayItems
    (done : List Value)
    (rest : List Expr) :
    (state.stepArrayItems done rest).Follows numbers parting
      (other.stepArrayItems (done.map (Value.renumbered numbers)) rest) := by
  cases rest with
  | nil =>
      have items :
          (done.map (Value.renumbered numbers)).reverse.toArray =
            done.reverse.toArray.map (Value.renumbered numbers) := by
        rw [← List.map_reverse, List.map_toArray]
      unfold State.stepArrayItems
      dsimp only
      rw [follows.world, items, World.renumbered, Heap.allocate_renumbered]
      exact (follows.withWorld
        { state.world with heap := (state.world.heap.allocate done.reverse.toArray).2 }).give
          (.array _)
  | cons item rest => exact follows.into (.arrayItem done rest) _

theorem stepArguments
    (line : Nat)
    (callee : Callee)
    (done : List Value)
    (rest : List Expr) :
    (state.stepArguments line callee done rest).Follows numbers parting
      (other.stepArguments line (callee.renumbered numbers)
        (done.map (Value.renumbered numbers)) rest) := by
  cases rest with
  | nil =>
      unfold State.stepArguments
      rw [← List.map_reverse]
      cases callee with
      | function value => exact follows.goto (.call value done.reverse line)
      | method object name => exact follows.goto (.invoke object name done.reverse line)
  | cons argument rest => exact follows.into (.callArgument line callee done rest) _

theorem stepResolve
    (target : Expr)
    (wanted : PlaceUse) :
    (state.stepResolve target wanted).Follows numbers parting
      (other.stepResolve target wanted) := by
  cases target with
  | index => exact follows.into _ _
  | _ => exact follows.goto _

/-- What is read is the same up to the numbers. -/
theorem readPlace (place : Place) :
    other.readPlace place = (state.readPlace place).map (Value.renumbered numbers) := by
  rcases place with name | ⟨id, position⟩
  · unfold State.readPlace
    dsimp only
    rw [follows.scopes.get?]
    cases state.scopes.get? name <;> rfl
  · unfold State.readPlace
    dsimp only
    rw [follows.world, World.renumbered, Heap.get?_renumbered]
    cases state.world.heap.get? id position <;> rfl

/-- What is stored is the same up to the numbers. -/
theorem storeAndGive
    (line : Nat)
    (place : Place)
    (stored given : Value) :
    (state.storeAndGive line place stored given).Follows numbers parting
      (other.storeAndGive line place (stored.renumbered numbers) (given.renumbered numbers)) := by
  rcases place with name | ⟨id, position⟩
  · have assigned := follows.scopes.set? name stored
    unfold State.storeAndGive State.writePlace
    dsimp only
    generalize state.scopes.set? name stored = result at assigned ⊢
    generalize other.scopes.set? name _ = otherResult at assigned ⊢
    cases assigned with
    | some same =>
        obtain ⟨scopes, _, rfl⟩ := follows
        exact ⟨_, same, rfl⟩
    | none => exact follows.goto _
  · unfold State.storeAndGive State.writePlace
    dsimp only
    rw [follows.world, World.renumbered, Heap.set_renumbered]
    exact (follows.withWorld
      { state.world with heap := state.world.heap.set id position stored }).give given

theorem finishAssign
    (line : Nat)
    (op : Option BinaryOp)
    (place : Place)
    (value : Value) :
    (state.finishAssign line op place value).Follows numbers parting
      (other.finishAssign line op place (value.renumbered numbers)) := by
  cases op with
  | none => exact follows.storeAndGive line place value value
  | some op =>
      unfold State.finishAssign
      dsimp only
      rw [follows.readPlace, follows.world]
      cases state.readPlace place with
      | error fault => exact follows.goto _
      | ok current =>
          dsimp only [Except.map]
          rw [World.renumbered, Value.binary_renumbered]
          have fixed := Value.yields_binary (concernsFunctions_renumbered numbers)
            state.world.heap op current value
          cases computed : Value.binary state.world.heap op current value with
          | error fault => exact follows.goto _
          | ok result =>
              have stored := follows.storeAndGive line place result result
              rw [fixed result computed] at stored
              exact stored

/-- What a step stores is a number or a text. -/
theorem finishUpdate
    (line : Nat)
    (step : Step)
    (fixity : Fixity)
    (place : Place) :
    (state.finishUpdate line step fixity place).Follows numbers parting
      (other.finishUpdate line step fixity place) := by
  unfold State.finishUpdate
  rw [follows.readPlace, follows.world]
  cases state.readPlace place with
  | error fault => exact follows.goto _
  | ok current =>
      have computed :
          Value.binary (state.world.heap.renumbered numbers) (stepOperator step)
              (current.renumbered numbers) (.int 1) =
            Value.binary state.world.heap (stepOperator step) current (.int 1) :=
        Value.binary_renumbered _ _ current (.int 1)
      have fixed := Value.yields_binary (concernsFunctions_renumbered numbers)
        state.world.heap (stepOperator step) current (.int 1)
      dsimp only [Except.map, World.renumbered]
      rw [computed]
      cases found : Value.binary state.world.heap (stepOperator step) current (.int 1) with
      | error fault => exact follows.goto _
      | ok updated =>
          have stored (given : Value) := follows.storeAndGive line place updated given
          rw [fixed updated found] at stored
          cases fixity with
          | before =>
              have given := stored updated
              rw [fixed updated found] at given
              exact given
          | after => exact stored current

theorem stepUse
    (place : Place)
    (wanted : PlaceUse) :
    (state.stepUse place wanted).Follows numbers parting (other.stepUse place wanted) := by
  cases wanted with
  | read line =>
      unfold State.stepUse
      dsimp only
      rw [follows.readPlace]
      cases state.readPlace place with
      | ok value => exact follows.give value
      | error fault => exact follows.goto _
  | assign => exact follows.into _ _
  | update line step fixity => exact follows.finishUpdate line step fixity place

/-- A function is entered whose scope is found under its new number. -/
theorem enterFunction
    (ahead : state.Ahead numbers)
    (closure : Closure)
    (arguments : List Value)
    (line : Nat) :
    (state.enterFunction closure arguments line).Follows numbers parting
      (other.enterFunction (closure.renumbered numbers)
        (arguments.map (Value.renumbered numbers)) line) := by
  have sameOpen :
      other.scopes.isOpen (closure.renumbered numbers).scope =
        state.scopes.isOpen closure.scope :=
    follows.scopes.isOpen closure.scope
  have sameDepth : other.depth = state.depth := by
    obtain ⟨scopes, same, rfl⟩ := follows
    rfl
  unfold State.enterFunction
  rw [sameOpen, sameDepth]
  split
  · exact follows.goto _
  · split
    · obtain ⟨scopes, same, rfl⟩ := follows
      exact ⟨_, same.pushUnder ahead.scope closure.scope, rfl⟩
    · exact follows.goto _

/-- A native call has no use for the numbers of scopes. -/
theorem callNative
    (builtin : Builtin)
    (arguments : List Value)
    (line : Nat) :
    (state.callNative builtin arguments line).Follows numbers parting
      (other.callNative builtin (arguments.map (Value.renumbered numbers)) line) := by
  obtain ⟨same, fixed⟩ :=
    Native.runIn_callBuiltin_renumbered numbers state.world builtin arguments
  unfold State.callNative
  rw [follows.world, same]
  revert fixed
  rcases Native.runIn state.world (Native.callBuiltin builtin arguments) with
    ⟨fault | response, world⟩
  · exact fun _ => (follows.withWorld world).goto _
  · cases response with
    | value value => exact fun fixed => (follows.withWorld world).giveSame (fixed _ rfl)
    | suspend => exact fun _ => (follows.withWorld world).into _ _

/-- A call of the renumbered function has renumbered arguments. -/
theorem stepCall
    (ahead : state.Ahead numbers)
    (callee : Value)
    (arguments : List Value)
    (line : Nat) :
    (state.stepCall callee arguments line).Follows numbers parting
      (other.stepCall (callee.renumbered numbers)
        (arguments.map (Value.renumbered numbers)) line) := by
  cases callee with
  | function closure => exact follows.enterFunction ahead closure arguments line
  | builtin builtin => exact follows.callNative builtin arguments line
  | _ => exact follows.goto _

theorem stepInvoke
    (object : Value)
    (name : String)
    (arguments : List Value)
    (line : Nat) :
    (state.stepInvoke object name arguments line).Follows numbers parting
      (other.stepInvoke (object.renumbered numbers) name
        (arguments.map (Value.renumbered numbers)) line) := by
  cases object with
  | object handle =>
      obtain ⟨same, fixed⟩ :=
        Native.runIn_callMethod_renumbered numbers state.world handle name arguments
      have isObject : (Value.object handle).renumbered numbers = .object handle := rfl
      rw [isObject]
      unfold State.stepInvoke
      dsimp only
      rw [follows.world, same]
      revert fixed
      rcases Native.runIn state.world (Native.callMethod handle name arguments) with
        ⟨fault | value, world⟩
      · exact fun _ => (follows.withWorld world).goto _
      · exact fun fixed => (follows.withWorld world).giveSame (fixed value rfl)
  | _ => exact follows.goto _

/-- Parameters are bound to the renumbered arguments. -/
theorem stepBind
    (inside : state.scopes.Inside parting)
    (parameters : List Parameter)
    (arguments : List Value)
    (body : List Stmt) :
    (state.stepBind parameters arguments body).Follows numbers parting
      (other.stepBind parameters (arguments.map (Value.renumbered numbers)) body) := by
  rcases parameters with _ | ⟨⟨name, default⟩, rest⟩
  · exact follows.goto _
  · rcases arguments with _ | ⟨argument, arguments⟩
    · cases default with
      | none => exact (follows.declare inside name .undefined).goto (.bindParameters rest [] body)
      | some default => exact follows.into _ _
    · exact (follows.declare inside name argument).goto (.bindParameters rest arguments body)

/-- The same button has been pressed, and its handler is renumbered. -/
theorem handlerOf? (id : Nat) :
    State.handlerOf? other.world.board id =
      (State.handlerOf? state.world.board id).map fun found =>
        (found.1, found.2.renumbered numbers) := by
  rw [follows.world]
  unfold State.handlerOf? World.renumbered Board.renumbered
  rw [Array.getElem?_map]
  cases state.world.board.buttons[id]? with
  | none => rfl
  | some button =>
      obtain ⟨label, handler⟩ := button
      cases handler <;> rfl

omit follows in
/-- A handler is declared on the same line. -/
theorem handlerLine_renumbered (handler : Value) :
    State.handlerLine (handler.renumbered numbers) = State.handlerLine handler := by
  cases handler <;> rfl

/-- The same click is handled. -/
theorem stepNextClick : state.stepNextClick.Follows numbers parting other.stepNextClick := by
  have sameHost : other.world.host = state.world.host := by
    rw [follows.world]
    rfl
  unfold State.stepNextClick
  dsimp only
  rw [sameHost]
  cases state.world.host.clicks.take? with
  | none =>
      obtain ⟨scopes, same, rfl⟩ := follows
      exact ⟨scopes, same, rfl⟩
  | some taken =>
      dsimp only
      rw [follows.handlerOf?, follows.live]
      cases State.handlerOf? state.world.board taken.1 with
      | none => exact follows.withHost _
      | some handled =>
          dsimp only [Option.map]
          rw [handlerLine_renumbered]
          have clicked := follows.withHost
            ({ state.world.host with clicks := taken.2 }.record
              (.buttonClicked taken.1 handled.1))
          split
          · exact clicked.into .handlerCall (.call handled.2 [] _)
          · obtain ⟨scopes, same, isOther⟩ := clicked.goto (.raise .superseded)
            exact ⟨scopes, same,
              congrArg (fun state => { state with dispatching := false }) isOther⟩

/-- Entry points are found under the same names. -/
theorem entryPoint? (name : String) :
    other.entryPoint? name = (state.entryPoint? name).map (Value.renumbered numbers) := by
  have found := follows.scopes.getFrom? Scopes.globalId name
  rw [numbers.globalId] at found
  unfold State.entryPoint?
  rw [found]
  cases state.scopes.getFrom? Scopes.globalId name with
  | none => rfl
  | some value => cases value <;> rfl

/-- Both finish with the same result. -/
theorem finish : state.finish.Follows numbers parting other.finish := by
  obtain ⟨scopes, same, rfl⟩ := follows
  exact ⟨scopes, same, rfl⟩

theorem stepFindSetup : state.stepFindSetup.Follows numbers parting other.stepFindSetup := by
  unfold State.stepFindSetup
  rw [follows.entryPoint?]
  cases state.entryPoint? "setup" with
  | some setup => exact follows.into .setupCall (.call setup [] 0)
  | none => exact follows.goto _

theorem stepFindLoop : state.stepFindLoop.Follows numbers parting other.stepFindLoop := by
  unfold State.stepFindLoop
  rw [follows.entryPoint?]
  cases state.entryPoint? "loop" with
  | some main => exact follows.goto (.loopTop main)
  | none => exact follows.finish

theorem stepLoopTop (main : Value) :
    (state.stepLoopTop main).Follows numbers parting
      (other.stepLoopTop (main.renumbered numbers)) := by
  have sameLimit : other.limitReached = state.limitReached := by
    obtain ⟨scopes, same, rfl⟩ := follows
    rfl
  unfold State.stepLoopTop
  rw [follows.live, sameLimit]
  split
  · split
    · exact follows.finish
    · exact follows.into (.dispatchBeforeLoop main) .dispatch
  · exact follows.goto _

theorem stepDispatch : state.stepDispatch.Follows numbers parting other.stepDispatch := by
  have sameDispatching : other.dispatching = state.dispatching := by
    obtain ⟨scopes, same, rfl⟩ := follows
    rfl
  unfold State.stepDispatch
  rw [sameDispatching]
  split
  · exact follows.give .undefined
  · obtain ⟨scopes, same, rfl⟩ := follows
    exact ⟨scopes, same, rfl⟩

/-- A frame goes on with a value as its renumbered copy does. -/
theorem stepValue
    {frame : Frame}
    (ahead : state.Ahead numbers)
    (inside : frame.declares = true → state.scopes.Inside parting)
    (value : Value) :
    (state.stepValue value frame).Follows numbers parting
      (other.stepValue (value.renumbered numbers) (frame.renumbered numbers)) := by
  have concerns := concernsFunctions_renumbered numbers
  cases frame with
  | arrayItem done rest => exact follows.goto (.arrayItems (value :: done) rest)
  | unaryOperand line op =>
      unfold State.stepValue Frame.renumbered
      dsimp only
      rw [Value.unary_renumbered]
      exact follows.giveOperation line (Value.yields_unary concerns op value)
  | leftOperand line op right => exact follows.into (.rightOperand line op value) _
  | rightOperand line op left =>
      unfold State.stepValue Frame.renumbered
      dsimp only
      rw [follows.world, World.renumbered, Value.binary_renumbered]
      exact follows.giveOperation line (Value.yields_binary concerns _ op left value)
  | logicalLeft op right =>
      unfold State.stepValue Frame.renumbered
      dsimp only
      rw [Value.truthy_renumbered]
      split
      · exact follows.give _
      · exact follows.give _
      · exact follows.into _ _
  | logicalRight =>
      unfold State.stepValue Frame.renumbered
      dsimp only
      rw [Value.truthy_renumbered]
      exact follows.give _
  | conditionalTest whenTrue whenFalse =>
      unfold State.stepValue Frame.renumbered
      dsimp only
      rw [Value.truthy_renumbered]
      exact follows.goto _
  | assignedValue line op place => exact follows.finishAssign line op place value
  | castOperand line kind =>
      unfold State.stepValue Frame.renumbered
      dsimp only
      rw [Value.cast_renumbered]
      exact follows.giveOperation line (Value.yields_cast concerns kind value)
  | memberObject line name =>
      unfold State.stepValue Frame.renumbered
      dsimp only
      rw [follows.world, World.renumbered, memberValue_renumbered, Value.typeName_renumbered]
      cases found : memberValue state.world.heap name value with
      | some member =>
          have fixed := @good_memberValue (fun value => value.renumbered numbers = value)
            state.world.heap name value member concerns found
          exact follows.giveSame fixed
      | none => exact follows.goto _
  | callTarget line arguments =>
      exact follows.goto (.collectArguments line (.function value) [] arguments)
  | methodObject line name arguments =>
      exact follows.goto (.collectArguments line (.method value name) [] arguments)
  | callArgument line callee done rest =>
      exact follows.goto (.collectArguments line callee (value :: done) rest)
  | indexedObject line position wanted =>
      exact follows.into (.indexPosition line value wanted) _
  | indexPosition line object wanted =>
      unfold State.stepValue Frame.renumbered
      dsimp only
      rw [follows.world, World.renumbered, Value.toInt64_renumbered]
      split
      · exact follows.goto _
      · rw [elementPlace_renumbered]
        split <;> exact follows.goto _
  | declaredValue name rest => exact (follows.declare (inside rfl) name value).goto _
  | defaultValue name rest body =>
      exact (follows.declare (inside rfl) name value).goto (.bindParameters rest [] body)
  | branchTest whenTrue whenFalse =>
      unfold State.stepValue Frame.renumbered
      dsimp only
      rw [Value.truthy_renumbered]
      split
      · exact follows.goto _
      · split <;> exact follows.goto _
  | loopTest loop =>
      unfold State.stepValue Frame.renumbered
      dsimp only
      rw [Value.truthy_renumbered]
      split
      · exact follows.into _ _
      · exact follows.goto _
  | switchValue cases => exact follows.goto (.findCase value cases cases)
  | switchTest wanted rest cases =>
      unfold State.stepValue Frame.renumbered
      dsimp only
      rw [Value.equal_renumbered]
      split
      · exact follows.enterCases ahead rest
      · exact follows.goto (.findCase wanted (rest.drop 1) cases)
  | returnedValue => exact follows.goto (.flow (.returned value))
  | delayEnd line =>
      unfold State.stepValue Frame.renumbered
      dsimp only
      rw [follows.live]
      split <;> exact follows.goto _
  | dispatchBeforeLoop main => exact follows.into (.loopCall main) (.call main [] 0)
  | loopCall main =>
      obtain ⟨scopes, same, rfl⟩ := follows
      exact ⟨scopes, same, rfl⟩
  | iterationEnd main => exact follows.goto (.loopTop main)
  | discarded | loopStep | handlerCall | setupCall => exact follows.goto _
  | blockRest | openScope | loopStart | loopBody | caseRest | activation | topLevel =>
      exact follows.into _ _

/-- A completed statement leaves a frame as its renumbered copy does. -/
theorem stepFlow
    {frame : Frame}
    (inside : frame.closes = true → state.scopes.Inside parting)
    (flow : Flow) :
    (state.stepFlow flow frame).Follows numbers parting
      (other.stepFlow (flow.renumbered numbers) (frame.renumbered numbers)) := by
  cases frame with
  | blockRest | loopStart | caseRest | topLevel => cases flow <;> exact follows.goto _
  | loopBody loop =>
      cases flow with
      | returned value => exact follows.goto (.flow (.returned value))
      | _ => exact follows.goto _
  | openScope => exact (follows.closeScope (inside rfl)).goto (.flow flow)
  | activation outerDepth =>
      have given := (follows.closeScope (inside rfl)).give flow.value
      rw [← Flow.value_renumbered] at given
      obtain ⟨scopes, same, isOther⟩ := given
      exact ⟨scopes, same, congrArg (fun state => { state with depth := outerDepth }) isOther⟩
  | _ =>
      unfold State.stepFlow Frame.renumbered
      dsimp only
      rw [Flow.value_renumbered]
      exact follows.into _ (.value flow.value)

theorem stepRaise
    {frame : Frame}
    (inside : frame.closes = true → state.scopes.Inside parting) :
    (state.stepRaise frame).Follows numbers parting
      (other.stepRaise (frame.renumbered numbers)) := by
  cases frame with
  | openScope => exact follows.closeScope (inside rfl)
  | activation outerDepth =>
      obtain ⟨scopes, same, isOther⟩ := follows.closeScope (inside rfl)
      exact ⟨scopes, same, congrArg (fun state => { state with depth := outerDepth }) isOther⟩
  | handlerCall =>
      obtain ⟨scopes, same, rfl⟩ := follows
      exact ⟨scopes, same, rfl⟩
  | _ => exact follows

/-- Both runs make the same step, if it touches no parted scope. -/
theorem step
    (ahead : state.Ahead numbers)
    (inside : state.Touches → state.scopes.Inside parting) :
    state.step.Follows numbers parting other.step := by
  have declared (declares : state.control.declares = true) : state.scopes.Inside parting :=
    inside (.inl declares)
  have onTop
      {frame : Frame}
      {rest : List Frame}
      (top : state.stack = frame :: rest)
      (touches : frame.declares = true ∨ frame.closes = true) :
      state.scopes.Inside parting :=
    inside (.inr ⟨frame, by rw [top]; rfl, touches⟩)
  unfold State.step
  rw [follows.control, follows.stack]
  cases control : state.control <;> rw [control] at declared
  case eval expr => exact follows.stepEval expr
  case exec stmt => exact follows.stepExec ahead stmt
  case enterBlock body =>
    obtain ⟨scopes, same, rfl⟩ := follows
    refine ⟨_, follows_hoist same (declared rfl) state.nextBirth body, ?_⟩
    unfold State.renumbered State.withScopes Control.renumbered
    dsimp only
    rw [ahead.birth]
  case statements rest =>
    cases rest with
    | nil => exact follows.goto _
    | cons stmt rest => exact follows.into _ _
  case declare declarators => exact follows.stepDeclare (declared rfl)
  case turn loop =>
    unfold Control.renumbered State.stepTurn
    dsimp only
    split <;> exact follows.into _ _
  case steps loop rest =>
    cases rest with
    | nil => exact follows.goto _
    | cons expr rest => exact follows.into _ _
  case findCase value rest cases => exact follows.stepFindCase ahead value rest cases
  case cases rest =>
    cases rest with
    | nil => exact follows.goto _
    | cons case rest => exact follows.into _ _
  case arrayItems done rest => exact follows.stepArrayItems done rest
  case collectArguments line callee done rest =>
    exact follows.stepArguments line callee done rest
  case resolve target use => exact follows.stepResolve target use
  case use place use => exact follows.stepUse place use
  case call callee arguments line => exact follows.stepCall ahead callee arguments line
  case invoke object name arguments line => exact follows.stepInvoke object name arguments line
  case bindParameters parameters arguments body =>
    exact follows.stepBind (declared rfl) parameters arguments body
  case dispatch => exact follows.stepDispatch
  case nextClick => exact follows.stepNextClick
  case findSetup => exact follows.stepFindSetup
  case findLoop => exact follows.stepFindLoop
  case loopTop main => exact follows.stepLoopTop main
  case value value =>
    cases top : state.stack with
    | nil => exact follows.finish
    | cons frame rest =>
        exact (follows.popped rest).stepValue ⟨ahead.scope, ahead.birth⟩
          (fun declares => onTop top (.inl declares)) value
  case flow flow =>
    cases top : state.stack with
    | nil => exact follows.finish
    | cons frame rest =>
        exact (follows.popped rest).stepFlow (fun closes => onTop top (.inr closes)) flow
  case raise interrupt =>
    cases top : state.stack with
    | nil => exact follows.goto _
    | cons frame rest =>
        exact (follows.popped rest).stepRaise fun closes => onTop top (.inr closes)
  case suspended => exact follows
  case halted outcome => exact follows

end Steps

/-- Without a parted scope, the state that follows differs in its numbers only. -/
theorem eq_renumbered
    {state other : State}
    (follows : state.Follows numbers none other) :
    other = state.renumbered numbers := by
  obtain ⟨scopes, same, rfl⟩ := follows
  cases same.eq_renumbered
  rfl

end State.Follows

end LedSketch.Machine
