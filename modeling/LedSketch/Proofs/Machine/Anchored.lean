import LedSketch.Proofs.Machine.Lines
import LedSketch.Proofs.Script.Counters

namespace LedSketch.Machine

/-!
# Steps of code that counts

Code within the limits of a counter opens and closes its scopes above the outermost one,
and binds the counter nowhere else.  So a step leaves the value of the counter alone,
unless it combines it with an operand, and such a step reads the counter and writes it.
-/

open Script

/-- Whether a frame closes a scope when it is left. -/
def Frame.closes : Frame → Bool
  | .openScope => true
  | .activation _ => true
  | _ => false

/-- Every scope but the outermost one belongs to a frame, and does not bind the counter. -/
structure State.Anchored
    (counter : String)
    (found : Option Value)
    (state : State) :
    Prop where
  rooted : state.scopes.Rooted counter found
  nested : state.scopes.stack.length = state.stack.countP Frame.closes + 1

/-- Whether a place is the variable of a name. -/
def Place.names
    (name : String) :
    Place → Bool
  | .variable other => other = name
  | .element _ _ => false

/-- Only the variable has its name. -/
theorem Place.names_iff
    {name : String}
    {place : Place} :
    place.names name = true ↔ place = .variable name := by
  rcases place with other | ⟨id, position⟩
  · exact decide_eq_true_iff.trans ⟨congrArg Place.variable, Place.variable.inj⟩
  · exact ⟨Bool.noConfusion, Place.noConfusion⟩

/-- The operator and the operand that the next step combines the counter with. -/
def State.write?
    (counter : String)
    (state : State) :
    Option (BinaryOp × Value) :=
  match state.control, state.stack with
  | .use place (.update _ step _), _ =>
      if place.names counter then some (stepOperator step, .int 1) else none
  | .value operand, .assignedValue _ (some op) place :: _ =>
      if place.names counter then some (op, operand) else none
  | _, _ => none

/-- What a counter is bound to once it has been combined with an operand. -/
def combined
    (heap : Heap)
    (op : BinaryOp)
    (operand : Value) :
    Option Value → Option Value
  | some current =>
      match Value.binary heap op current operand with
      | .ok result => some result
      | .error _ => some current
  | none => none

/-- What the counter is bound to after the next step. -/
def State.rebound
    (counter : String)
    (found : Option Value)
    (state : State) :
    Option Value :=
  match state.write? counter with
  | some (op, operand) => combined state.world.heap op operand found
  | none => found

namespace State

variable {counter : String} {state : State}

/-- A step of a place writes if the place is the counter. -/
theorem write?_of_update
    {place : Place}
    {line : Nat}
    {step : Script.Step}
    {fixity : Fixity}
    (asked : state.control = .use place (.update line step fixity)) :
    state.write? counter =
      if place.names counter then some (stepOperator step, .int 1) else none := by
  rw [write?, asked]

/-- An assignment with an operator writes if its place is the counter. -/
theorem write?_of_assigned
    {value : Value}
    {line : Nat}
    {op : BinaryOp}
    {place : Place}
    {rest : List Frame}
    (given : state.control = .value value)
    (top : state.stack = .assignedValue line (some op) place :: rest) :
    state.write? counter = if place.names counter then some (op, value) else none := by
  rw [write?, given, top]

/-- Only an assignment that knows its value, or a step of a variable, writes the counter. -/
theorem write_cases
    {op : BinaryOp}
    {operand : Value}
    (written : state.write? counter = some (op, operand)) :
    (∃ line step fixity,
      state.control = .use (.variable counter) (.update line step fixity) ∧
        op = stepOperator step ∧ operand = .int 1) ∨
      ∃ line rest,
        state.control = .value operand ∧
          state.stack = .assignedValue line (some op) (.variable counter) :: rest := by
  unfold write? at written
  split at written
  · next place line step fixity asked =>
      split at written
      · next isCounter =>
          cases written
          obtain rfl := Place.names_iff.mp isCounter
          exact .inl ⟨line, step, fixity, asked, rfl, rfl⟩
      · contradiction
  · next value line op place rest given top =>
      split at written
      · next isCounter =>
          cases written
          obtain rfl := Place.names_iff.mp isCounter
          exact .inr ⟨line, rest, given, top⟩
      · contradiction
  · contradiction

/-- A write binds the counter to what the operator makes. -/
theorem rebound_of_write
    {op : BinaryOp}
    {operand : Value}
    (written : state.write? counter = some (op, operand))
    (found : Option Value) :
    state.rebound counter found = combined state.world.heap op operand found := by
  rw [rebound, written]

/-- Without a write the counter stays as it is bound. -/
theorem rebound_of_no_write
    (nothing : state.write? counter = none)
    (found : Option Value) :
    state.rebound counter found = found := by
  rw [rebound, nothing]

end State

namespace State.Anchored

variable {counter : String} {found : Option Value} {state : State}

/-- What is done next has no part in the scopes. -/
theorem goto
    (anchored : state.Anchored counter found)
    (control : Control) :
    (state.goto control).Anchored counter found :=
  ⟨anchored.rooted, anchored.nested⟩

/-- A frame that closes no scope may be put on the stack. -/
theorem push
    {frame : Frame}
    (anchored : state.Anchored counter found)
    (other : frame.closes = false) :
    (state.push frame).Anchored counter found := by
  refine ⟨anchored.rooted, ?_⟩
  change _ = (frame :: state.stack).countP Frame.closes + 1
  rw [List.countP_cons_of_neg (by rw [other]; exact Bool.false_ne_true)]
  exact anchored.nested

theorem into
    {frame : Frame}
    (anchored : state.Anchored counter found)
    (other : frame.closes = false)
    (control : Control) :
    (state.into frame control).Anchored counter found :=
  (anchored.push other).goto control

/-- Arrays and board have no part in the scopes. -/
theorem withWorld
    (anchored : state.Anchored counter found)
    (world : World) :
    (state.withWorld world).Anchored counter found :=
  ⟨anchored.rooted, anchored.nested⟩

/-- Scopes may be replaced by as many, with the counter bound in the outermost. -/
theorem withScopes
    {scopes : Scopes}
    {bound : Option Value}
    (anchored : state.Anchored counter found)
    (changed :
      scopes.Rooted counter bound ∧ scopes.stack.length = state.scopes.stack.length) :
    (state.withScopes scopes).Anchored counter bound :=
  ⟨changed.1, changed.2.trans anchored.nested⟩

/-- A frame that closes a scope is put on the stack when the scope is opened. -/
theorem opened
    {frame : Frame}
    {parent : Nat}
    (anchored : state.Anchored counter found)
    (closes : frame.closes = true)
    (isOpen : parent ∈ state.scopes.stack.map Scope.id) :
    ((state.withScopes (state.scopes.pushUnder parent)).push frame).Anchored counter found := by
  refine ⟨anchored.rooted.pushUnder isOpen, ?_⟩
  change state.scopes.stack.length + 1 = (frame :: state.stack).countP Frame.closes + 1
  rw [List.countP_cons_of_pos closes, anchored.nested]

/-- A scope is opened together with a frame that closes it. -/
theorem openedHere
    {frame : Frame}
    (anchored : state.Anchored counter found)
    (closes : frame.closes = true) :
    ((state.withScopes state.scopes.push).push frame).Anchored counter found :=
  anchored.opened closes anchored.rooted.current_open

/-- A frame that closes no scope may be taken from the stack. -/
theorem popped
    {frame : Frame}
    {rest : List Frame}
    (anchored : state.Anchored counter found)
    (top : state.stack = frame :: rest)
    (other : frame.closes = false) :
    (state.popped rest).Anchored counter found := by
  refine ⟨anchored.rooted, ?_⟩
  have nested := anchored.nested
  rw [top, List.countP_cons_of_neg (by rw [other]; exact Bool.false_ne_true)] at nested
  exact nested

/-- A frame that closes a scope leaves the outermost one open. -/
theorem closed
    {frame : Frame}
    {rest : List Frame}
    (anchored : state.Anchored counter found)
    (top : state.stack = frame :: rest)
    (closes : frame.closes = true) :
    ((state.popped rest).withScopes state.scopes.pop).Anchored counter found := by
  have nested := anchored.nested
  rw [top, List.countP_cons_of_pos closes] at nested
  have inner : 1 < state.scopes.stack.length := by
    rw [nested]
    exact Nat.succ_lt_succ (Nat.succ_pos _)
  obtain ⟨rooted, fewer⟩ := anchored.rooted.pop inner
  exact ⟨rooted, Nat.succ.inj (fewer.trans nested)⟩

/-- Another variable may be declared. -/
theorem declared
    {name : String}
    (anchored : state.Anchored counter found)
    (different : counter ≠ name)
    (value : Value) :
    (state.withScopes (state.scopes.declare name value)).Anchored counter found :=
  anchored.withScopes (anchored.rooted.declare_other different value)

theorem giveOperation
    (anchored : state.Anchored counter found)
    (line : Nat)
    (computed : Except TypeFault Value) :
    (state.giveOperation line computed).Anchored counter found := by
  cases computed <;> exact anchored.goto _

/-- The functions of a body that counts have other names than the counter. -/
theorem rooted_hoist
    {scopes : Scopes}
    {body : List Stmt}
    (birth : Nat)
    (parts : ∀ stmt ∈ body, stmt.Within (.counting counter))
    (rooted : scopes.Rooted counter found) :
    (hoist birth body scopes).Rooted counter found ∧
      (hoist birth body scopes).stack.length = scopes.stack.length := by
  induction body generalizing scopes with
  | nil => exact ⟨rooted, rfl⟩
  | cons stmt rest inductionHypothesis =>
      obtain ⟨first, others⟩ := List.forall_mem_cons.mp parts
      cases first with
      | @function line name parameters inner here named defaults innerParts =>
          obtain ⟨declared, sameLength⟩ :=
            rooted.declare_other named
              (.function ⟨⟨line, name, parameters, inner⟩, scopes.current, birth⟩)
          obtain ⟨hoisted, sameAgain⟩ := inductionHypothesis others declared
          exact ⟨hoisted, sameAgain.trans sameLength⟩
      | _ => exact inductionHypothesis others rooted

section Places

/-- Another place can be written without any effect on the counter. -/
theorem store_other
    {place : Place}
    (anchored : state.Anchored counter found)
    (other : place ≠ .variable counter)
    (line : Nat)
    (stored given : Value) :
    (state.storeAndGive line place stored given).Anchored counter found := by
  unfold State.storeAndGive State.writePlace
  rcases place with name | ⟨id, position⟩
  · have different : counter ≠ name := fun same => other (congrArg Place.variable same.symm)
    dsimp only
    cases set : state.scopes.set? name stored with
    | none => exact anchored.goto _
    | some scopes =>
        exact (anchored.withScopes (anchored.rooted.set?_other different set)).goto _
  · exact (anchored.withWorld _).goto _

/-- A value that is stored in the counter is bound to it. -/
theorem store
    {current : Value}
    (anchored : state.Anchored counter (some current))
    (line : Nat)
    (stored given : Value) :
    (state.storeAndGive line (.variable counter) stored given).Anchored counter
        (some stored) ∧
      (state.storeAndGive line (.variable counter) stored given).control = .value given := by
  obtain ⟨scopes, set, changed⟩ := anchored.rooted.set? stored
  unfold State.storeAndGive State.writePlace
  dsimp only
  rw [set]
  exact ⟨(anchored.withScopes changed).goto _, rfl⟩

/-- The counter reads as it is bound. -/
theorem readPlace
    (anchored : state.Anchored counter found) :
    state.readPlace (.variable counter) =
      found.elim (.error (.undefinedName counter)) .ok := by
  unfold State.readPlace
  dsimp only
  rw [anchored.rooted.get?]
  cases found <;> rfl

/-- An assignment to another place leaves the counter as it is. -/
theorem finishAssign_other
    {place : Place}
    (anchored : state.Anchored counter found)
    (other : place ≠ .variable counter)
    (line : Nat)
    (op : Option BinaryOp)
    (value : Value) :
    (state.finishAssign line op place value).Anchored counter found := by
  unfold State.finishAssign
  split
  · exact anchored.store_other other line value value
  · split
    · exact anchored.goto _
    · split
      · exact anchored.goto _
      · exact anchored.store_other other line _ _

/-- A step of another place leaves the counter as it is. -/
theorem finishUpdate_other
    {place : Place}
    (anchored : state.Anchored counter found)
    (other : place ≠ .variable counter)
    (line : Nat)
    (step : Script.Step)
    (fixity : Fixity) :
    (state.finishUpdate line step fixity place).Anchored counter found := by
  unfold State.finishUpdate
  split
  · exact anchored.goto _
  · split
    · exact anchored.goto _
    · exact anchored.store_other other line _ _

/-- A compound assignment reads the counter, combines it, and writes it, in one step. -/
theorem finishAssign
    (anchored : state.Anchored counter found)
    (line : Nat)
    (op : BinaryOp)
    (value : Value) :
    (state.finishAssign line (some op) (.variable counter) value).Anchored counter
      (combined state.world.heap op value found) := by
  unfold State.finishAssign combined
  dsimp only
  rw [anchored.readPlace]
  cases found with
  | none => exact anchored.goto _
  | some current =>
      dsimp only [Option.elim]
      cases Value.binary state.world.heap op current value with
      | error fault => exact anchored.goto _
      | ok result => exact (anchored.store line result result).1

/-- So does a step of the counter by one. -/
theorem finishUpdate
    (anchored : state.Anchored counter found)
    (line : Nat)
    (step : Script.Step)
    (fixity : Fixity) :
    (state.finishUpdate line step fixity (.variable counter)).Anchored counter
      (combined state.world.heap (stepOperator step) (.int 1) found) := by
  unfold State.finishUpdate combined
  rw [anchored.readPlace]
  cases found with
  | none => exact anchored.goto _
  | some current =>
      dsimp only [Option.elim]
      cases Value.binary state.world.heap (stepOperator step) current (.int 1) with
      | error fault => exact anchored.goto _
      | ok result => exact (anchored.store line result _).1

/-- An assignment that can be computed does not fail. -/
theorem finishAssign_gives
    {line : Nat}
    {op : BinaryOp}
    {value current result : Value}
    (anchored : state.Anchored counter (some current))
    (computed : Value.binary state.world.heap op current value = .ok result) :
    (state.finishAssign line (some op) (.variable counter) value).control =
      .value result := by
  unfold State.finishAssign
  dsimp only
  rw [anchored.readPlace]
  dsimp only [Option.elim]
  rw [computed]
  exact (anchored.store line result result).2

/-- A step of the counter goes on with a value, if it can be computed. -/
theorem finishUpdate_gives
    {line : Nat}
    {step : Script.Step}
    {current result : Value}
    (anchored : state.Anchored counter (some current))
    (computed :
      Value.binary state.world.heap (stepOperator step) current (.int 1) = .ok result)
    (fixity : Fixity) :
    ∃ given,
      (state.finishUpdate line step fixity (.variable counter)).control = .value given := by
  unfold State.finishUpdate
  rw [anchored.readPlace]
  dsimp only [Option.elim]
  rw [computed]
  exact ⟨_, (anchored.store line result _).2⟩

end Places

/-- To begin an expression leaves the counter as it is. -/
theorem stepEval
    (anchored : state.Anchored counter found)
    (expr : Expr) :
    (state.stepEval expr).Anchored counter found := by
  cases expr with
  | int | float | text | bool | undefined => exact anchored.goto _
  | array | assign | update | await | index => exact anchored.goto _
  | unary | binary | logical | conditional | cast | member => exact anchored.into rfl _
  | name line name =>
      unfold State.stepEval
      dsimp only
      split <;> exact anchored.goto _
  | call line callee arguments => cases callee <;> exact anchored.into rfl _

/-- To begin a statement leaves the counter as it is. -/
theorem stepExec
    (anchored : state.Anchored counter found)
    (stmt : Stmt) :
    (state.stepExec stmt).Anchored counter found := by
  cases stmt with
  | declare | function | breaks | continues | empty | whileLoop => exact anchored.goto _
  | expr | branch | doLoop | switch => exact anchored.into rfl _
  | block body => exact (anchored.openedHere rfl).goto _
  | forLoop init test steps body =>
      have opened :
          ((state.withScopes state.scopes.push).push .openScope).Anchored counter found :=
        anchored.openedHere rfl
      cases init with
      | nothing => exact opened.goto _
      | declare line declarators => exact opened.into rfl _
      | expr expr =>
          have inLoop :
              (((state.withScopes state.scopes.push).push .openScope).push
                (.loopStart ⟨test, steps, body⟩)).Anchored counter found :=
            opened.push rfl
          exact inLoop.into rfl _
  | returns line value =>
      cases value with
      | none => exact anchored.goto _
      | some expr => exact anchored.into rfl _

/-- The declarations of a script that counts are of other variables. -/
theorem stepDeclare
    {declarators : List Declarator}
    (anchored : state.Anchored counter found)
    (within : ∀ declarator ∈ declarators, declarator.Within (.counting counter)) :
    (state.stepDeclare declarators).Anchored counter found := by
  cases declarators with
  | nil => exact anchored.goto _
  | cons declarator rest =>
      obtain ⟨first, others⟩ := List.forall_mem_cons.mp within
      unfold State.stepDeclare
      dsimp only
      split
      · exact anchored.into rfl _
      · exact (anchored.declared first.named _).goto _

theorem enterCases
    (anchored : state.Anchored counter found)
    (cases : List SwitchCase) :
    (state.enterCases cases).Anchored counter found := by
  unfold State.enterCases
  split
  · exact anchored.goto _
  · exact (anchored.openedHere rfl).goto _

/-- To look for a case leaves the counter as it is. -/
theorem stepFindCase
    (anchored : state.Anchored counter found)
    (value : Value)
    (rest cases : List SwitchCase) :
    (state.stepFindCase value rest cases).Anchored counter found := by
  unfold State.stepFindCase
  split
  · exact anchored.enterCases _
  · split
    · exact anchored.into rfl _
    · exact anchored.goto _

theorem stepArrayItems
    (anchored : state.Anchored counter found)
    (done : List Value)
    (rest : List Expr) :
    (state.stepArrayItems done rest).Anchored counter found := by
  cases rest with
  | nil => exact (anchored.withWorld _).goto _
  | cons item rest => exact anchored.into rfl _

theorem stepArguments
    (anchored : state.Anchored counter found)
    (line : Nat)
    (callee : Callee)
    (done : List Value)
    (rest : List Expr) :
    (state.stepArguments line callee done rest).Anchored counter found := by
  cases rest with
  | nil => cases callee <;> exact anchored.goto _
  | cons argument rest => exact anchored.into rfl _

theorem stepResolve
    (anchored : state.Anchored counter found)
    (target : Expr)
    (use : PlaceUse) :
    (state.stepResolve target use).Anchored counter found := by
  unfold State.stepResolve
  split
  · exact anchored.goto _
  · exact anchored.into rfl _
  · exact anchored.goto _

/-- A function is entered in a scope of its own. -/
theorem enterFunction
    (anchored : state.Anchored counter found)
    (closure : Closure)
    (arguments : List Value)
    (line : Nat) :
    (state.enterFunction closure arguments line).Anchored counter found := by
  unfold State.enterFunction
  split
  · exact anchored.goto _
  · split
    · next isOpen =>
        obtain ⟨scope, member, same⟩ := List.any_eq_true.mp isOpen
        have among : closure.scope ∈ state.scopes.stack.map Scope.id :=
          List.mem_map.mpr ⟨scope, member, of_decide_eq_true same⟩
        have entered :
            ((state.withScopes (state.scopes.pushUnder closure.scope)).push
              (.activation state.depth)).Anchored counter found :=
          anchored.opened rfl among
        exact ⟨entered.rooted, entered.nested⟩
    · exact anchored.goto _

/-- A call leaves the counter as it is, until the function writes. -/
theorem stepCall
    (anchored : state.Anchored counter found)
    (callee : Value)
    (arguments : List Value)
    (line : Nat) :
    (state.stepCall callee arguments line).Anchored counter found := by
  cases callee with
  | function closure => exact anchored.enterFunction closure arguments line
  | builtin builtin =>
      unfold State.stepCall State.callNative
      dsimp only
      split
      · exact (anchored.withWorld _).goto _
      · exact (anchored.withWorld _).into rfl _
      · exact (anchored.withWorld _).goto _
  | _ => exact anchored.goto _

/-- A method leaves the counter as it is. -/
theorem stepInvoke
    (anchored : state.Anchored counter found)
    (object : Value)
    (name : String)
    (arguments : List Value)
    (line : Nat) :
    (state.stepInvoke object name arguments line).Anchored counter found := by
  cases object with
  | object handle =>
      unfold State.stepInvoke
      dsimp only
      split <;> exact (anchored.withWorld _).goto _
  | _ => exact anchored.goto _

/-- The parameters of a script that counts have other names than the counter. -/
theorem stepBind
    {parameters : List Parameter}
    (anchored : state.Anchored counter found)
    (within : ∀ parameter ∈ parameters, parameter.Within (.counting counter))
    (arguments : List Value)
    (body : List Stmt) :
    (state.stepBind parameters arguments body).Anchored counter found := by
  cases parameters with
  | nil => exact anchored.goto _
  | cons parameter rest =>
      obtain ⟨first, others⟩ := List.forall_mem_cons.mp within
      unfold State.stepBind
      dsimp only
      split
      · exact (anchored.declared first.named _).goto _
      · split
        · exact anchored.into rfl _
        · exact (anchored.declared first.named _).goto _

/-- To begin with a handler leaves the counter as it is. -/
theorem stepNextClick
    (anchored : state.Anchored counter found) :
    state.stepNextClick.Anchored counter found := by
  unfold State.stepNextClick
  dsimp only
  split
  · exact ⟨anchored.rooted, anchored.nested⟩
  · split
    · exact anchored.withWorld _
    · split
      · exact (anchored.withWorld _).into rfl _
      · exact ⟨anchored.rooted, anchored.nested⟩

theorem stepLoopTop
    (anchored : state.Anchored counter found)
    (main : Value) :
    (state.stepLoopTop main).Anchored counter found := by
  unfold State.stepLoopTop
  split
  · split
    · exact anchored.goto _
    · exact anchored.into rfl _
  · exact anchored.goto _

/-- The frames that do not close a scope. -/
theorem stepValue
    {frame : Frame}
    {value : Value}
    (anchored : state.Anchored counter found)
    (other : frame.closes = false)
    (within : frame.Within (.counting counter))
    (unwritten :
      ∀ line op, frame ≠ .assignedValue line (some op) (.variable counter)) :
    (state.stepValue value frame).Anchored counter found := by
  cases frame with
  | arrayItem | conditionalTest | callTarget | methodObject | callArgument | discarded =>
      exact anchored.goto _
  | unaryOperand | rightOperand | castOperand => exact anchored.giveOperation _ _
  | leftOperand | indexedObject | dispatchBeforeLoop => exact anchored.into rfl _
  | logicalRight | loopStep | switchValue | returnedValue | handlerCall | setupCall
  | iterationEnd =>
      exact anchored.goto _
  | logicalLeft op right =>
      unfold State.stepValue
      dsimp only
      split
      · exact anchored.goto _
      · exact anchored.goto _
      · exact anchored.into rfl _
  | assignedValue line op place =>
      cases op with
      | some op =>
          refine anchored.finishAssign_other ?_ line (some op) value
          rintro rfl
          exact unwritten line op rfl
      | none =>
          refine anchored.finishAssign_other ?_ line none value
          rintro rfl
          obtain isNone | isNone := within.2 rfl <;> contradiction
  | memberObject line name =>
      unfold State.stepValue
      dsimp only
      split <;> exact anchored.goto _
  | indexPosition line object use =>
      unfold State.stepValue
      dsimp only
      split
      · exact anchored.goto _
      · split <;> exact anchored.goto _
  | declaredValue name rest => exact (anchored.declared within.1 value).goto _
  | defaultValue name rest body => exact (anchored.declared within.1 value).goto _
  | branchTest whenTrue whenFalse =>
      unfold State.stepValue
      dsimp only
      split
      · exact anchored.goto _
      · split <;> exact anchored.goto _
  | loopTest loop =>
      unfold State.stepValue
      dsimp only
      split
      · exact anchored.into rfl _
      · exact anchored.goto _
  | switchTest wanted rest cases =>
      unfold State.stepValue
      dsimp only
      split
      · exact anchored.enterCases _
      · exact anchored.goto _
  | delayEnd line =>
      unfold State.stepValue
      dsimp only
      split <;> exact anchored.goto _
  | loopCall main =>
      have resting : (state.into (.iterationEnd main) .suspended).Anchored counter found :=
        anchored.into rfl .suspended
      exact ⟨resting.rooted, resting.nested⟩
  | blockRest | loopStart | loopBody | caseRest | topLevel => exact anchored.into rfl _
  | openScope | activation => contradiction

/-- A completed statement leaves the counter as it is. -/
theorem stepFlow
    {frame : Frame}
    (anchored : state.Anchored counter found)
    (other : frame.closes = false)
    (flow : Flow) :
    (state.stepFlow flow frame).Anchored counter found := by
  cases frame with
  | openScope | activation => contradiction
  | blockRest | loopStart | loopBody | caseRest | topLevel =>
      cases flow <;> exact anchored.goto _
  | _ => exact anchored.into rfl _

theorem stepRaise
    {frame : Frame}
    (anchored : state.Anchored counter found)
    (other : frame.closes = false) :
    (state.stepRaise frame).Anchored counter found := by
  cases frame with
  | openScope | activation => contradiction
  | _ => exact ⟨anchored.rooted, anchored.nested⟩

/-- A frame that does not take a result is put back. -/
theorem putBack
    {frame : Frame}
    {rest : List Frame}
    (anchored : state.Anchored counter found)
    (top : state.stack = frame :: rest)
    (control : Control) :
    ((state.popped rest).into frame control).Anchored counter found := by
  refine ⟨anchored.rooted, ?_⟩
  change _ = (frame :: rest).countP Frame.closes + 1
  rw [← top]
  exact anchored.nested

/-- Without a write there is nothing to bind anew. -/
theorem unwritten
    {after : State}
    (nothing : state.write? counter = none)
    (anchored : after.Anchored counter found) :
    after.Anchored counter (state.rebound counter found) := by
  rw [State.rebound_of_no_write nothing]
  exact anchored

/-- A value that a frame waits for may be what the counter is combined with. -/
theorem step_of_value
    {value : Value}
    {frame : Frame}
    {rest : List Frame}
    (anchored : state.Anchored counter found)
    (within : frame.Within (.counting counter))
    (given : state.control = .value value)
    (top : state.stack = frame :: rest) :
    ((state.popped rest).stepValue value frame).Anchored counter
      (state.rebound counter found) := by
  cases write : state.write? counter with
  | some written =>
      obtain ⟨op, operand⟩ := written
      rw [State.rebound_of_write write]
      obtain ⟨line, step, fixity, asked, _⟩ | ⟨line, others, isValue, isTop⟩ :=
        State.write_cases write
      · cases asked.symm.trans given
      · obtain rfl := Control.value.inj (isValue.symm.trans given)
        obtain ⟨rfl, rfl⟩ := List.cons.inj (isTop.symm.trans top)
        exact (anchored.popped top rfl).finishAssign line op operand
  | none =>
      refine unwritten write ?_
      cases closes : frame.closes with
      | true =>
          -- A frame that closes a scope waits for a completion, not for a value.
          have back := anchored.putBack top (.flow .normal)
          cases frame with
          | openScope | activation => exact back
          | _ => contradiction
      | false =>
          refine (anchored.popped top closes).stepValue closes within ?_
          rintro line op rfl
          rw [State.write?_of_assigned given top, if_pos (Place.names_iff.mpr rfl)] at write
          contradiction

/-- The use of a place may be a step of the counter. -/
theorem step_of_use
    {place : Place}
    {wanted : PlaceUse}
    (anchored : state.Anchored counter found)
    (asked : state.control = .use place wanted) :
    (state.stepUse place wanted).Anchored counter (state.rebound counter found) := by
  cases wanted with
  | read line =>
      refine unwritten (by rw [State.write?, asked]) ?_
      unfold State.stepUse
      dsimp only
      split <;> exact anchored.goto _
  | assign line op value =>
      exact unwritten (by rw [State.write?, asked]) (anchored.into rfl _)
  | update line step fixity =>
      have write :
          state.write? counter =
            if place.names counter then some (stepOperator step, .int 1) else none :=
        State.write?_of_update asked
      cases isCounter : place.names counter with
      | true =>
          rw [isCounter, if_pos rfl] at write
          obtain rfl := Place.names_iff.mp isCounter
          rw [State.rebound_of_write write]
          exact anchored.finishUpdate line step fixity
      | false =>
          rw [isCounter, if_neg Bool.false_ne_true] at write
          refine unwritten write (anchored.finishUpdate_other ?_ line step fixity)
          intro same
          rw [Place.names_iff.mpr same] at isCounter
          contradiction

/-- A completed statement closes the scope of its frame. -/
theorem step_of_flow
    {flow : Flow}
    {frame : Frame}
    {rest : List Frame}
    (anchored : state.Anchored counter found)
    (top : state.stack = frame :: rest) :
    ((state.popped rest).stepFlow flow frame).Anchored counter found := by
  cases closes : frame.closes with
  | true =>
      have closed := anchored.closed top closes
      cases frame with
      | openScope => exact closed.goto _
      | activation => exact ⟨closed.rooted, closed.nested⟩
      | _ => contradiction
  | false => exact (anchored.popped top closes).stepFlow closes flow

/-- A raised interrupt closes the scope of the frame that it leaves. -/
theorem step_of_raise
    {frame : Frame}
    {rest : List Frame}
    (anchored : state.Anchored counter found)
    (top : state.stack = frame :: rest) :
    ((state.popped rest).stepRaise frame).Anchored counter found := by
  cases closes : frame.closes with
  | true =>
      have closed := anchored.closed top closes
      cases frame with
      | openScope => exact closed
      | activation => exact ⟨closed.rooted, closed.nested⟩
      | _ => contradiction
  | false => exact (anchored.popped top closes).stepRaise closes

/-- Whatever a step does, it combines the counter with an operand or leaves it alone. -/
theorem step
    (anchored : state.Anchored counter found)
    (within : state.Within (.counting counter)) :
    state.step.Anchored counter (state.rebound counter found) := by
  have code := within.control
  unfold State.step
  cases control : state.control <;> rw [control] at code
  case value value =>
    cases top : state.stack with
    | nil =>
        refine unwritten ?_ (anchored.goto _)
        rw [State.write?, control, top]
    | cons frame rest =>
        exact anchored.step_of_value (within.hold.popped top).1 control top
  case use place wanted => exact anchored.step_of_use control
  all_goals refine unwritten (by rw [State.write?, control]) ?_
  case eval expr => exact anchored.stepEval expr
  case exec stmt => exact anchored.stepExec stmt
  case enterBlock body =>
    have hoisted := anchored.withScopes (rooted_hoist state.nextBirth code anchored.rooted)
    exact ⟨hoisted.rooted, hoisted.nested⟩
  case statements rest =>
    cases rest with
    | nil => exact anchored.goto _
    | cons stmt rest => exact anchored.into rfl _
  case declare declarators => exact anchored.stepDeclare code
  case turn loop => unfold State.stepTurn; dsimp only; split <;> exact anchored.into rfl _
  case steps loop rest =>
    cases rest with
    | nil => exact anchored.goto _
    | cons expr rest => exact anchored.into rfl _
  case findCase value rest cases => exact anchored.stepFindCase value rest cases
  case cases rest =>
    cases rest with
    | nil => exact anchored.goto _
    | cons case rest => exact anchored.into rfl _
  case arrayItems done rest => exact anchored.stepArrayItems done rest
  case collectArguments line callee done rest =>
    exact anchored.stepArguments line callee done rest
  case resolve target wanted => exact anchored.stepResolve target wanted
  case call callee arguments line => exact anchored.stepCall callee arguments line
  case invoke object name arguments line =>
    exact anchored.stepInvoke object name arguments line
  case bindParameters parameters arguments body =>
    exact anchored.stepBind code.1 arguments body
  case dispatch =>
    dsimp only
    unfold State.stepDispatch
    split
    · exact anchored.goto _
    · exact ⟨anchored.rooted, anchored.nested⟩
  case nextClick => exact anchored.stepNextClick
  case findSetup =>
    dsimp only
    unfold State.stepFindSetup
    split
    · exact anchored.into rfl _
    · exact anchored.goto _
  case findLoop =>
    dsimp only
    unfold State.stepFindLoop
    split <;> exact anchored.goto _
  case loopTop main => exact anchored.stepLoopTop main
  case flow flow =>
    cases top : state.stack with
    | nil => exact anchored.goto _
    | cons frame rest => exact anchored.step_of_flow top
  case raise interrupt =>
    cases top : state.stack with
    | nil => exact anchored.goto _
    | cons frame rest => exact anchored.step_of_raise top
  case suspended | halted => exact anchored

end State.Anchored

end LedSketch.Machine
