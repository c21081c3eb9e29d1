import LedSketch.Proofs.Machine.Stale
import LedSketch.Simulation.Run

namespace LedSketch

/-!
# The elements of arrays

A step stores in one place at most, and else only makes new arrays.  So no array changes
its length, and an element that is resolved as a target stays one until it is used.
-/

open Script (BinaryOp Expr Fixity Heap RuntimeFault Stmt SwitchCase TypeFault Value)

namespace Script.Heap

variable {heap before after : Heap} {id position : Nat} {value item : Value}

/-- Whether there is an array of a number. -/
def Has
    (heap : Heap)
    (id : Nat) :
    Prop :=
  id < heap.arrays.size

/-- The arrays of the first heap are in the second one as they are. -/
def Extends (before after : Heap) : Prop :=
  ∀ (id : Nat) (items : Array Value),
    before.arrays[id]? = some items → after.arrays[id]? = some items

theorem Extends.refl (heap : Heap) : Extends heap heap := fun _ _ found => found

/-- Arrays that are kept twice are kept. -/
theorem Extends.trans
    (first : Extends before heap)
    (second : Extends heap after) :
    Extends before after :=
  fun id items found => second id items (first id items found)

/-- A new array leaves those that exist as they are. -/
theorem extends_allocate
    (heap : Heap)
    (items : Array Value) :
    Extends heap (heap.allocate items).2 := by
  intro id old found
  obtain ⟨within, _⟩ := Array.getElem?_eq_some_iff.mp found
  rw [allocate, Array.getElem?_push_lt within]
  rwa [Array.getElem?_eq_getElem within] at found

/-- An array that exists is still there later, and has the length it had. -/
theorem Extends.has
    (extended : Extends before after)
    (has : before.Has id) :
    after.Has id ∧ after.length id = before.length id := by
  have found := Array.getElem?_eq_getElem has
  have kept := extended id _ found
  refine ⟨(Array.getElem?_eq_some_iff.mp kept).1, ?_⟩
  rw [length, length, found, kept]

/-- The elements of an array that exists are still there later. -/
theorem Extends.get?
    (extended : Extends before after)
    (found : before.get? id position = some item) :
    after.get? id position = some item := by
  obtain ⟨items, isArray, isItem⟩ := Option.bind_eq_some_iff.mp found
  exact Option.bind_eq_some_iff.mpr ⟨items, extended id items isArray, isItem⟩

/-- A position within the length of an array has an item. -/
theorem lt_length_iff :
    position < heap.length id ↔ ∃ item, heap.get? id position = some item := by
  unfold length get?
  cases heap.arrays[id]? with
  | none => simp
  | some items =>
      simp only [Option.bind_some, Array.getElem?_eq_some_iff]
      exact ⟨fun within => ⟨_, within, rfl⟩, fun ⟨_, within, _⟩ => within⟩

/-- Only an array that exists has positions. -/
theorem has_of_lt_length (within : position < heap.length id) : heap.Has id := by
  obtain ⟨item, found⟩ := lt_length_iff.mp within
  obtain ⟨items, isArray, _⟩ := Option.bind_eq_some_iff.mp found
  exact (Array.getElem?_eq_some_iff.mp isArray).1

/-- What was a position of an array is one later. -/
theorem Extends.lt_length
    (extended : Extends before after)
    (within : position < before.length id) :
    position < after.length id := by
  rw [(extended.has (has_of_lt_length within)).2]
  exact within

/-- Storing an element makes no array and removes none. -/
theorem has_set
    (heap : Heap)
    (id position : Nat)
    (value : Value)
    (other : Nat) :
    (heap.set id position value).Has other ↔ heap.Has other := by
  simp [Has, set]

/-- What has been stored at a position of an array is read there. -/
theorem get?_set_self (within : position < heap.length id) :
    (heap.set id position value).get? id position = some value := by
  unfold length at within
  unfold get? set
  rw [Array.getElem?_modify, if_pos rfl]
  cases found : heap.arrays[id]? with
  | none => simp [found] at within
  | some items =>
      rw [found] at within
      simp [Array.getElem?_setIfInBounds_self_of_lt within]

/-- To store an item leaves all others as they are. -/
theorem get?_set_other
    {other place : Nat}
    (different : (id, position) ≠ (other, place)) :
    (heap.set id position value).get? other place = heap.get? other place := by
  unfold get? set
  rw [Array.getElem?_modify]
  split
  · next same =>
      subst same
      have elsewhere : position ≠ place := fun same => different (by rw [same])
      cases heap.arrays[id]? with
      | none => rfl
      | some items => simp [Array.getElem?_setIfInBounds_ne elsewhere]
  · rfl

end Script.Heap

namespace Native

/-- A single effect of a native call stores nothing in the arrays that are there. -/
theorem Effect.extends_heap
    {world next : World}
    (effect : Effect world next) :
    world.heap.Extends next.heap := by
  cases effect with
  | arrayMade items => exact Heap.extends_allocate world.heap items
  | _ => exact .refl world.heap

/-- A native call makes arrays, and stores nothing in those that are there. -/
theorem Effects.extends_heap
    {world next : World}
    (effects : Effects world next) :
    world.heap.Extends next.heap := by
  induction effects with
  | refl => exact .refl world.heap
  | tail _ effect inductionHypothesis => exact inductionHypothesis.trans effect.extends_heap

end Native

namespace Machine

/-- Whether a place, if it is an element, is one of an array in the heap. -/
def Place.IsIn
    (heap : Heap) :
    Place → Prop
  | .variable _ => True
  | .element id position => position < heap.length id

/-- The arrays after a value has been stored in a place. -/
def Place.store
    (heap : Heap)
    (value : Value) :
    Place → Heap
  | .variable _ => heap
  | .element id position => heap.set id position value

/-- The place that a frame keeps until a value for it is known. -/
def Frame.place? : Frame → Option Place
  | .assignedValue _ _ place => some place
  | _ => none

/-- Only the frame of an assignment keeps a place. -/
theorem Frame.exists_of_place?
    {frame : Frame}
    {place : Place}
    (keeps : frame.place? = some place) :
    ∃ line op, frame = .assignedValue line op place := by
  cases frame with
  | assignedValue line op kept =>
      cases keeps
      exact ⟨line, op, rfl⟩
  | _ => contradiction

/-- The place that a control is about to use. -/
def Control.place? : Control → Option Place
  | .use place _ => some place
  | _ => none

/-- The places that have been resolved and are not used yet. -/
inductive State.Targets (state : State) (place : Place) : Prop where
  | control
      (isNext : state.control.place? = some place) :
      Targets state place
  | frame
      {frame : Frame}
      (inStack : frame ∈ state.stack)
      (kept : frame.place? = some place) :
      Targets state place

/-- What an operand makes of the value of a place, if an operator combines them. -/
def State.combined?
    (state : State)
    (op : Option BinaryOp)
    (place : Place)
    (operand : Value) :
    Option Value :=
  match op with
  | none => some operand
  | some op =>
      match state.readPlace place with
      | .ok current => (Value.binary state.world.heap op current operand).toOption
      | .error _ => none

/-- The place that the next step stores in, and the value that it stores there. -/
def State.stores? (state : State) : Option (Place × Value) :=
  match state.control with
  | .use place (.update _ step _) =>
      (state.combined? (some (stepOperator step)) place (.int 1)).map (place, ·)
  | .value operand =>
      match state.stack with
      | .assignedValue _ op place :: _ => (state.combined? op place operand).map (place, ·)
      | _ => none
  | _ => none

/-- The arrays after the next step, but those that it makes. -/
def State.written (state : State) : Heap :=
  match state.stores? with
  | some (place, value) => place.store state.world.heap value
  | none => state.world.heap

/-- The result of a step of a place, which stands before or after the place. -/
def stepResult
    (fixity : Fixity)
    (current updated : Value) :
    Value :=
  match fixity with
  | .before => updated
  | .after => current

/-- A state that has made arrays at most, with good places in its frames. -/
structure State.Rests
    (before : Heap)
    (good : Place → Prop)
    (state : State) :
    Prop where
  heap : before.Extends state.world.heap
  stack : ∀ frame ∈ state.stack, ∀ place ∈ frame.place?, good place

/-- A state that has made arrays at most, with good places everywhere. -/
structure State.Leads
    (before : Heap)
    (good : Place → Prop)
    (state : State) :
    Prop where
  rests : state.Rests before good
  control : ∀ place ∈ state.control.place?, good place

variable {before : Heap} {good : Place → Prop}

namespace State.Rests

variable {state : State}

theorem goto
    {control : Control}
    (rests : state.Rests before good)
    (isGood : ∀ place ∈ control.place?, good place) :
    (state.goto control).Leads before good :=
  ⟨⟨rests.heap, rests.stack⟩, isGood⟩

theorem push
    {frame : Frame}
    (rests : state.Rests before good)
    (isGood : ∀ place ∈ frame.place?, good place) :
    (state.push frame).Rests before good :=
  ⟨rests.heap, List.forall_mem_cons.mpr ⟨isGood, rests.stack⟩⟩

theorem into
    {frame : Frame}
    {control : Control}
    (rests : state.Rests before good)
    (goodFrame : ∀ place ∈ frame.place?, good place)
    (goodControl : ∀ place ∈ control.place?, good place) :
    (state.into frame control).Leads before good :=
  (rests.push goodFrame).goto goodControl

theorem withScopes
    (rests : state.Rests before good)
    (scopes : Script.Scopes) :
    (state.withScopes scopes).Rests before good :=
  ⟨rests.heap, rests.stack⟩

theorem withWorld
    {world : World}
    (rests : state.Rests before good)
    (extended : state.world.heap.Extends world.heap) :
    (state.withWorld world).Rests before good :=
  ⟨rests.heap.trans extended, rests.stack⟩

theorem nothing : ∀ place ∈ (none : Option Place), good place := nofun

/-- The one place of a frame or a control is good if it is. -/
theorem only
    {place : Place}
    (isGood : good place) :
    ∀ other ∈ some place, good other := by
  intro other same
  obtain rfl := Option.mem_some_iff.mp same
  exact isGood

/-- A failure uses no place. -/
theorem fault
    (rests : state.Rests before good)
    (line : Nat)
    (fault : RuntimeFault) :
    (state.fault line fault).Leads before good :=
  rests.goto nothing

/-- The result of an operator uses no place. -/
theorem giveOperation
    (rests : state.Rests before good)
    (line : Nat)
    (computed : Except TypeFault Value) :
    (state.giveOperation line computed).Leads before good := by
  cases computed <;> exact rests.goto nothing

/-- An expression is taken apart, and no place is known yet. -/
theorem stepEval
    (rests : state.Rests before good)
    (expr : Expr) :
    (state.stepEval expr).Leads before good := by
  cases expr with
  | int | float | text | bool | undefined | array | assign | update | await | index =>
      exact rests.goto nothing
  | name line name =>
      unfold State.stepEval
      dsimp only
      split <;> exact rests.goto nothing
  | unary | binary | logical | conditional | cast | member => exact rests.into nothing nothing
  | call line callee arguments => cases callee <;> exact rests.into nothing nothing

/-- A statement is taken apart, and no place is known yet. -/
theorem stepExec
    (rests : state.Rests before good)
    (stmt : Stmt) :
    (state.stepExec stmt).Leads before good := by
  cases stmt with
  | declare | function | breaks | continues | empty | whileLoop => exact rests.goto nothing
  | expr | branch | doLoop | switch => exact rests.into nothing nothing
  | block body => exact (rests.withScopes _).into nothing nothing
  | forLoop init test steps body =>
      have opened : ((state.withScopes state.scopes.push).push .openScope).Rests before good :=
        (rests.withScopes _).push nothing
      cases init with
      | nothing => exact opened.goto nothing
      | declare line declarators => exact opened.into nothing nothing
      | expr expr =>
          have inLoop :
              (((state.withScopes state.scopes.push).push .openScope).push
                (.loopStart ⟨test, steps, body⟩)).Rests before good :=
            opened.push nothing
          exact inLoop.into nothing nothing
  | returns line value =>
      cases value with
      | none => exact rests.goto nothing
      | some expr => exact rests.into nothing nothing

/-- A declaration binds variables, and no place is known. -/
theorem stepDeclare
    (rests : state.Rests before good)
    (declarators : List Script.Declarator) :
    (state.stepDeclare declarators).Leads before good := by
  unfold State.stepDeclare
  split
  · exact rests.goto nothing
  · split
    · exact rests.into nothing nothing
    · exact (rests.withScopes _).goto nothing

/-- A turn of a loop only goes on to its parts. -/
theorem stepTurn
    (rests : state.Rests before good)
    (loop : Loop) :
    (state.stepTurn loop).Leads before good := by
  unfold State.stepTurn
  split <;> exact rests.into nothing nothing

/-- The steps of a loop are expressions, and no place is known yet. -/
theorem stepSteps
    (rests : state.Rests before good)
    (loop : Loop)
    (rest : List Expr) :
    (state.stepSteps loop rest).Leads before good := by
  cases rest with
  | nil => exact rests.goto nothing
  | cons expr rest => exact rests.into nothing nothing

theorem enterCases
    (rests : state.Rests before good)
    (cases : List SwitchCase) :
    (state.enterCases cases).Leads before good := by
  unfold State.enterCases
  split
  · exact rests.goto nothing
  · exact (rests.withScopes _).into nothing nothing

/-- The case to run is looked for without the use of a place. -/
theorem stepFindCase
    (rests : state.Rests before good)
    (value : Value)
    (rest cases : List SwitchCase) :
    (state.stepFindCase value rest cases).Leads before good := by
  unfold State.stepFindCase
  split
  · exact rests.enterCases _
  · split
    · exact rests.into nothing nothing
    · exact rests.goto nothing

/-- The cases of a switch are statements, and no place is known yet. -/
theorem stepCases
    (rests : state.Rests before good)
    (rest : List SwitchCase) :
    (state.stepCases rest).Leads before good := by
  cases rest with
  | nil => exact rests.goto nothing
  | cons case rest => exact rests.into nothing nothing

/-- An array is made when all its items are known. -/
theorem stepArrayItems
    (rests : state.Rests before good)
    (done : List Value)
    (rest : List Expr) :
    (state.stepArrayItems done rest).Leads before good := by
  cases rest with
  | nil => exact (rests.withWorld (Heap.extends_allocate _ _)).goto nothing
  | cons item rest => exact rests.into nothing nothing

/-- Arguments are evaluated one after the other, and no place is known yet. -/
theorem stepArguments
    (rests : state.Rests before good)
    (line : Nat)
    (callee : Callee)
    (done : List Value)
    (rest : List Expr) :
    (state.stepArguments line callee done rest).Leads before good := by
  cases rest with
  | nil => cases callee <;> exact rests.goto nothing
  | cons argument rest => exact rests.into nothing nothing

/-- A function that is entered gets scopes, and leaves the arrays as they are. -/
theorem enterFunction
    (rests : state.Rests before good)
    (closure : Script.Closure)
    (arguments : List Value)
    (line : Nat) :
    (state.enterFunction closure arguments line).Leads before good := by
  unfold State.enterFunction
  split
  · exact rests.fault line _
  · split
    · have activated :
          ((state.withScopes (state.scopes.pushUnder closure.scope)).push
            (.activation state.depth)).Rests before good :=
        (rests.withScopes _).push nothing
      exact ⟨⟨activated.heap, activated.stack⟩, nothing⟩
    · exact rests.fault line _

/-- A call enters a function, or is native and makes arrays at most. -/
theorem stepCall
    (rests : state.Rests before good)
    (callee : Value)
    (arguments : List Value)
    (line : Nat) :
    (state.stepCall callee arguments line).Leads before good := by
  cases callee with
  | function closure => exact rests.enterFunction closure arguments line
  | builtin builtin =>
      have effects := Native.Acts.compositional.callBuiltin builtin arguments state.world
      unfold State.stepCall State.callNative
      dsimp only
      split
      all_goals
        next ran =>
          rw [ran] at effects
          have onward := rests.withWorld effects.extends_heap
          first | exact onward.goto nothing | exact onward.into nothing nothing
  | _ => exact rests.fault line _

/-- A method call makes arrays at most. -/
theorem stepInvoke
    (rests : state.Rests before good)
    (object : Value)
    (name : String)
    (arguments : List Value)
    (line : Nat) :
    (state.stepInvoke object name arguments line).Leads before good := by
  cases object with
  | object handle =>
      have effects := Native.Acts.compositional.callMethod handle name arguments state.world
      unfold State.stepInvoke
      dsimp only
      split
      all_goals
        next ran =>
          rw [ran] at effects
          exact (rests.withWorld effects.extends_heap).goto nothing
  | _ => exact rests.fault line _

/-- Parameters are bound in the scope of the function. -/
theorem stepBind
    (rests : state.Rests before good)
    (parameters : List Script.Parameter)
    (arguments : List Value)
    (body : List Stmt) :
    (state.stepBind parameters arguments body).Leads before good := by
  unfold State.stepBind
  split
  · exact rests.goto nothing
  · split
    · exact (rests.withScopes _).goto nothing
    · split
      · exact rests.into nothing nothing
      · exact (rests.withScopes _).goto nothing

theorem stepDispatch (rests : state.Rests before good) :
    state.stepDispatch.Leads before good := by
  unfold State.stepDispatch
  split
  · exact rests.goto nothing
  · exact ⟨⟨rests.heap, rests.stack⟩, nothing⟩

/-- A click calls its handler, and nothing is stored. -/
theorem stepNextClick
    (rests : state.Rests before good)
    (selecting : state.control = .nextClick) :
    state.stepNextClick.Leads before good := by
  unfold State.stepNextClick
  dsimp only
  split
  · exact ⟨⟨rests.heap, rests.stack⟩, nothing⟩
  · next id clicks taken =>
      split
      · refine ⟨⟨rests.heap, rests.stack⟩, ?_⟩
        -- A click of no button is dropped, and the next one is selected.
        change ∀ place ∈ state.control.place?, good place
        rw [selecting]
        exact nothing
      · next label handler handled =>
          have clicked :
              (state.withWorld { state.world with
                host := { state.world.host with clicks }.record
                  (.buttonClicked id label) }).Rests before good :=
            ⟨rests.heap, rests.stack⟩
          split
          · exact clicked.into nothing nothing
          · exact ⟨⟨clicked.heap, clicked.stack⟩, nothing⟩

theorem stepFindSetup (rests : state.Rests before good) :
    state.stepFindSetup.Leads before good := by
  unfold State.stepFindSetup
  split
  · exact rests.into nothing nothing
  · exact rests.goto nothing

theorem stepFindLoop (rests : state.Rests before good) :
    state.stepFindLoop.Leads before good := by
  unfold State.stepFindLoop
  split <;> exact rests.goto nothing

/-- The call of `loop` uses no place. -/
theorem stepLoopTop
    (rests : state.Rests before good)
    (main : Value) :
    (state.stepLoopTop main).Leads before good := by
  unfold State.stepLoopTop
  split
  · split
    · exact rests.goto nothing
    · exact rests.into nothing nothing
  · exact rests.goto nothing

/-- A target that is a name resolves to its variable; an element has to be evaluated first. -/
theorem stepResolve
    (rests : state.Rests before good)
    (ofVariable : ∀ name, good (.variable name))
    (target : Expr)
    (use : PlaceUse) :
    (state.stepResolve target use).Leads before good := by
  unfold State.stepResolve
  split
  · exact rests.goto (only (ofVariable _))
  · exact rests.into nothing nothing
  · exact rests.fault _ _

/-- A frame that keeps no place takes a value without storing it. -/
theorem stepValue
    {frame : Frame}
    (rests : state.Rests before good)
    (value : Value)
    (keepsNone : frame.place? = none)
    (elements :
      ∀ object position place,
        elementPlace state.world.heap object position = .ok place → good place) :
    (state.stepValue value frame).Leads before good := by
  cases frame with
  | assignedValue line op place => contradiction
  | unaryOperand | rightOperand | castOperand => exact rests.giveOperation _ _
  | leftOperand line op right => exact rests.into nothing nothing
  | logicalLeft op right =>
      unfold State.stepValue
      dsimp only
      split
      · exact rests.goto nothing
      · exact rests.goto nothing
      · exact rests.into nothing nothing
  | memberObject line name =>
      unfold State.stepValue
      dsimp only
      split <;> exact rests.goto nothing
  | indexedObject line position use => exact rests.into nothing nothing
  | indexPosition line object use =>
      unfold State.stepValue
      dsimp only
      split
      · exact rests.fault line _
      · next position _ =>
          split
          · next place isElement =>
              exact rests.goto (only (elements object position place isElement))
          · exact rests.fault line _
  | declaredValue name rest => exact (rests.withScopes _).goto nothing
  | branchTest whenTrue whenFalse =>
      unfold State.stepValue
      dsimp only
      split
      · exact rests.goto nothing
      · split <;> exact rests.goto nothing
  | loopTest loop =>
      unfold State.stepValue
      dsimp only
      split
      · exact rests.into nothing nothing
      · exact rests.goto nothing
  | switchTest wanted rest cases =>
      unfold State.stepValue
      dsimp only
      split
      · exact rests.enterCases rest
      · exact rests.goto nothing
  | defaultValue name rest body => exact (rests.withScopes _).goto nothing
  | delayEnd line =>
      unfold State.stepValue
      dsimp only
      split <;> exact rests.goto nothing
  | dispatchBeforeLoop main => exact rests.into nothing nothing
  | loopCall main =>
      have resting : (state.push (.iterationEnd main)).Rests before good := rests.push nothing
      exact ⟨⟨resting.heap, resting.stack⟩, nothing⟩
  | blockRest | openScope | loopStart | loopBody | caseRest | activation | topLevel =>
      exact rests.into nothing nothing
  | _ => exact rests.goto nothing

/-- A completed statement leaves frames, and nothing is stored. -/
theorem stepFlow
    {frame : Frame}
    (rests : state.Rests before good)
    (flow : Flow)
    (kept : ∀ place ∈ frame.place?, good place) :
    (state.stepFlow flow frame).Leads before good := by
  cases frame with
  | blockRest | loopStart | caseRest | loopBody | topLevel =>
      cases flow <;> exact rests.goto nothing
  | openScope => exact (rests.withScopes _).goto nothing
  | activation outerDepth => exact ⟨⟨rests.heap, rests.stack⟩, nothing⟩
  | _ => exact rests.into kept nothing

/-- A raised interrupt leaves one frame after the other, and nothing is stored. -/
theorem stepRaise
    (rests : state.Rests before good)
    (frame : Frame)
    (kept : ∀ place ∈ state.control.place?, good place) :
    (state.stepRaise frame).Leads before good := by
  cases frame <;> exact ⟨⟨rests.heap, rests.stack⟩, kept⟩

/-- The frame on top has good places, and so have those below it. -/
theorem popped
    {frame : Frame}
    {rest : List Frame}
    (rests : state.Rests before good)
    (top : state.stack = frame :: rest) :
    (∀ place ∈ frame.place?, good place) ∧ (state.popped rest).Rests before good := by
  have stack := rests.stack
  rw [top] at stack
  obtain ⟨first, others⟩ := List.forall_mem_cons.mp stack
  exact ⟨first, rests.heap, others⟩

/-- To store in a place and to go on with a value. -/
theorem storeAndGive
    (rests : state.Rests state.world.heap good)
    (line : Nat)
    (place : Place)
    (stored given : Value) :
    (state.storeAndGive line place stored given).Leads
      (place.store state.world.heap stored) good := by
  rcases place with name | ⟨id, position⟩
  · unfold State.storeAndGive State.writePlace
    dsimp only
    cases state.scopes.set? name stored with
    | none => exact rests.fault line _
    | some scopes => exact (rests.withScopes scopes).goto nothing
  · exact ⟨⟨.refl _, rests.stack⟩, nothing⟩

/-- The heap after a value that may be known has been stored in a place. -/
theorem finishAssign
    (rests : state.Rests state.world.heap good)
    (line : Nat)
    (op : Option BinaryOp)
    (place : Place)
    (value : Value) :
    (state.finishAssign line op place value).Leads
      ((state.combined? op place value).elim state.world.heap (place.store state.world.heap))
      good := by
  cases op with
  | none => exact rests.storeAndGive line place value value
  | some op =>
      unfold State.finishAssign State.combined?
      dsimp only
      cases state.readPlace place with
      | error fault => exact rests.fault line fault
      | ok current =>
          dsimp only
          cases Value.binary state.world.heap op current value with
          | error fault => exact rests.fault line _
          | ok result => exact rests.storeAndGive line place result result

/-- A step of a place stores what the operator makes of its value and one. -/
theorem finishUpdate
    (rests : state.Rests state.world.heap good)
    (line : Nat)
    (step : Script.Step)
    (fixity : Fixity)
    (place : Place) :
    (state.finishUpdate line step fixity place).Leads
      ((state.combined? (some (stepOperator step)) place (.int 1)).elim state.world.heap
        (place.store state.world.heap)) good := by
  unfold State.finishUpdate State.combined?
  dsimp only
  cases state.readPlace place with
  | error fault => exact rests.fault line fault
  | ok current =>
      dsimp only
      cases Value.binary state.world.heap (stepOperator step) current (.int 1) with
      | error fault => exact rests.fault line _
      | ok updated => exact rests.storeAndGive line place updated _

end State.Rests

/-- A state whose places are elements of arrays that are there. -/
def State.Grounded (state : State) : Prop :=
  state.Leads state.world.heap (·.IsIn state.world.heap)

section Steps

variable {state : State}

/-- A place that is resolved from an array and a position is one of the array. -/
theorem Place.isIn_of_elementPlace
    {heap : Heap}
    {object : Value}
    {position : Int64}
    {place : Place}
    (isElement : elementPlace heap object position = .ok place) :
    place.IsIn heap := by
  unfold elementPlace at isElement
  split at isElement
  · next id =>
      split at isElement
      · next within =>
          cases isElement
          change position.toInt.toNat < heap.length id
          omega
      · contradiction
  · contradiction

/-- A place stays one of its array when arrays are made. -/
theorem Place.IsIn.extend
    {after : Heap}
    {place : Place}
    (isIn : place.IsIn before)
    (extended : before.Extends after) :
    place.IsIn after := by
  rcases place with name | ⟨id, position⟩
  · trivial
  · exact extended.lt_length isIn

/-- To store a value that may be known is to go on from the arrays that the step writes. -/
theorem State.Leads.of_made
    {heap : Heap}
    {place : Place}
    {made : Option Value}
    (stored : state.Leads (made.elim heap (place.store heap)) good) :
    state.Leads
      (match made.map (place, ·) with
        | some (place, value) => place.store heap value
        | none => heap)
      good := by
  cases made <;> exact stored

/-- A step stores what it stores, and makes new arrays at most. -/
theorem State.Grounded.leads (grounded : state.Grounded) :
    state.step.Leads state.written (·.IsIn state.world.heap) := by
  obtain ⟨rests, isGood⟩ := grounded
  have nothing := @Rests.nothing (·.IsIn state.world.heap)
  unfold State.step State.written State.stores?
  cases control : state.control <;> rw [control] at isGood <;> dsimp only
  case eval expr => exact rests.stepEval expr
  case exec stmt => exact rests.stepExec stmt
  case enterBlock body => exact ⟨⟨rests.heap, rests.stack⟩, nothing⟩
  case statements rest =>
    cases rest with
    | nil => exact rests.goto nothing
    | cons stmt rest => exact rests.into nothing nothing
  case declare declarators => exact rests.stepDeclare declarators
  case turn loop => exact rests.stepTurn loop
  case steps loop rest => exact rests.stepSteps loop rest
  case findCase value rest cases => exact rests.stepFindCase value rest cases
  case cases rest => exact rests.stepCases rest
  case arrayItems done rest => exact rests.stepArrayItems done rest
  case collectArguments line callee done rest => exact rests.stepArguments line callee done rest
  case resolve target use => exact rests.stepResolve (fun _ => trivial) target use
  case use place use =>
    cases use with
    | read line =>
        unfold State.stepUse
        dsimp only
        split <;> exact rests.goto nothing
    | assign line op value => exact rests.into isGood nothing
    | update line step fixity => exact (rests.finishUpdate line step fixity place).of_made
  case call callee arguments line => exact rests.stepCall callee arguments line
  case invoke object name arguments line => exact rests.stepInvoke object name arguments line
  case bindParameters parameters arguments body => exact rests.stepBind parameters arguments body
  case dispatch => exact rests.stepDispatch
  case nextClick => exact rests.stepNextClick control
  case findSetup => exact rests.stepFindSetup
  case findLoop => exact rests.stepFindLoop
  case loopTop main => exact rests.stepLoopTop main
  case value value =>
    cases top : state.stack with
    | nil => exact rests.goto nothing
    | cons frame rest =>
        obtain ⟨kept, popped⟩ := rests.popped top
        cases keeps : frame.place? with
        | none =>
            have given := popped.stepValue value keeps fun _ _ _ => Place.isIn_of_elementPlace
            cases frame <;> first | exact given | contradiction
        | some place =>
            obtain ⟨line, op, rfl⟩ := Frame.exists_of_place? keeps
            have stored := @Rests.finishAssign _ (state.popped rest) popped line op place value
            exact stored.of_made
  case flow flow =>
    cases top : state.stack with
    | nil => exact rests.goto nothing
    | cons frame rest =>
        obtain ⟨kept, popped⟩ := rests.popped top
        exact popped.stepFlow flow kept
  case raise interrupt =>
    cases top : state.stack with
    | nil => exact rests.goto nothing
    | cons frame rest =>
        have raised :
            ∀ place ∈ (state.popped rest).control.place?, place.IsIn state.world.heap := by
          change ∀ place ∈ state.control.place?, place.IsIn state.world.heap
          rw [control]
          exact nothing
        exact (rests.popped top).2.stepRaise frame raised
  case suspended => exact ⟨rests, by rw [control]; exact nothing⟩
  case halted outcome => exact ⟨rests, by rw [control]; exact nothing⟩

/-- The arrays that a step stores in have the lengths that they had. -/
theorem State.length_written (id : Nat) : state.written.length id = state.world.heap.length id := by
  unfold State.written
  split
  · next place value _ =>
      rcases place with name | ⟨other, position⟩
      · rfl
      · exact Heap.length_set ..
  · rfl

/-- Storing makes no array and removes none. -/
theorem State.has_written (id : Nat) : state.written.Has id ↔ state.world.heap.Has id := by
  unfold State.written
  split
  · next place value _ =>
      rcases place with name | ⟨other, position⟩
      · exact Iff.rfl
      · exact Heap.has_set ..
  · exact Iff.rfl

/-- What is stored changes the length of no array. -/
theorem State.isIn_written
    {place : Place}
    (isIn : place.IsIn state.world.heap) :
    place.IsIn state.written := by
  rcases place with name | ⟨id, position⟩
  · trivial
  · change position < state.written.length id
    rw [State.length_written]
    exact isIn

/-- The place that the next step stores in has been resolved. -/
theorem State.targets_of_stores?
    {place : Place}
    {value : Value}
    (stores : state.stores? = some (place, value)) :
    state.Targets place := by
  unfold State.stores? at stores
  split at stores
  · next kept line step fixity asked =>
      obtain ⟨_, _, same⟩ := Option.map_eq_some_iff.mp stores
      cases same
      exact .control (by rw [asked]; rfl)
  · split at stores
    · next line op kept rest top =>
        obtain ⟨_, _, same⟩ := Option.map_eq_some_iff.mp stores
        cases same
        exact .frame (by rw [top]; exact List.mem_cons_self) rfl
    · contradiction
  · contradiction

/-- An operator that succeeds on the value of a place says what is to be stored. -/
theorem State.combined?_eq_some
    {op : BinaryOp}
    {place : Place}
    {current operand result : Value}
    (read : state.readPlace place = .ok current)
    (computed : Value.binary state.world.heap op current operand = .ok result) :
    state.combined? (some op) place operand = some result := by
  unfold State.combined?
  dsimp only
  rw [read]
  dsimp only
  rw [computed]
  rfl

namespace State.Grounded

/-- A place that is resolved and waits to be used is one of its array. -/
theorem isIn
    {place : Place}
    (grounded : state.Grounded)
    (targets : state.Targets place) :
    place.IsIn state.world.heap := by
  cases targets with
  | control isNext => exact grounded.control place isNext
  | frame inStack kept => exact grounded.rests.stack _ inStack place kept

/-- Each place that waits to be used is one of its array after a step too. -/
theorem step (grounded : state.Grounded) : state.step.Grounded := by
  obtain ⟨⟨extended, stack⟩, control⟩ := grounded.leads
  have remains
      {place : Place}
      (isIn : place.IsIn state.world.heap) :
      place.IsIn state.step.world.heap :=
    (State.isIn_written isIn).extend extended
  exact ⟨⟨.refl _, fun frame member place kept => remains (stack frame member place kept)⟩,
    fun place isNext => remains (control place isNext)⟩

/-- The host that polls has no part in the places. -/
theorem attach
    (grounded : state.Grounded)
    (host : Host) :
    (state.attach host).Grounded :=
  ⟨⟨.refl _, grounded.rests.stack⟩, grounded.control⟩

/-- The host that polls after a pause has no part in the places. -/
theorem wake
    (grounded : state.Grounded)
    (host : Host) :
    (state.wake host).Grounded :=
  ⟨⟨.refl _, grounded.rests.stack⟩, Rests.nothing⟩

/-- At first no place waits to be used. -/
theorem begin
    (config : Config)
    (program : Script.Program)
    (host : Host) :
    (State.begin config program host).Grounded :=
  ⟨⟨.refl _, List.forall_mem_singleton.mpr Rests.nothing⟩, Rests.nothing⟩

/-- An array is still there after a step, with the length that it had. -/
theorem length_step
    {id : Nat}
    (grounded : state.Grounded)
    (has : state.world.heap.Has id) :
    state.step.world.heap.Has id ∧
      state.step.world.heap.length id = state.world.heap.length id := by
  have kept := grounded.leads.rests.heap.has (State.has_written id |>.mpr has)
  rw [State.length_written] at kept
  exact kept

/-- A step stores what it is about to store in an element. -/
theorem get?_step_of_stores
    {id position : Nat}
    {value : Value}
    (grounded : state.Grounded)
    (stores : state.stores? = some (.element id position, value)) :
    state.step.world.heap.get? id position = some value := by
  have within := grounded.isIn (State.targets_of_stores? stores)
  have written : state.written = state.world.heap.set id position value := by
    rw [State.written, stores]
    rfl
  apply grounded.leads.rests.heap.get?
  rw [written]
  exact Heap.get?_set_self within

/-- An element is the same after a step that does not store in it. -/
theorem get?_step
    {id position : Nat}
    {item : Value}
    (grounded : state.Grounded)
    (found : state.world.heap.get? id position = some item)
    (untouched : ∀ value, state.stores? ≠ some (.element id position, value)) :
    state.step.world.heap.get? id position = some item := by
  apply grounded.leads.rests.heap.get?
  rw [State.written]
  split
  · next place value stores =>
      rcases place with name | ⟨other, place⟩
      · exact found
      · refine (Heap.get?_set_other ?_).trans found
        intro same
        cases same
        exact untouched value stores
  · exact found

/-- An element that has been resolved is read as the item that it is. -/
theorem readPlace_element
    {id position : Nat}
    (grounded : state.Grounded)
    (targets : state.Targets (.element id position)) :
    ∃ item,
      state.world.heap.get? id position = some item ∧
        state.readPlace (.element id position) = .ok item := by
  obtain ⟨item, found⟩ := Heap.lt_length_iff.mp (grounded.isIn targets)
  refine ⟨item, found, ?_⟩
  unfold State.readPlace
  dsimp only
  rw [found]
  rfl

/-- An element that is read has a value, and this is the result. -/
theorem read_element
    {id position line : Nat}
    (grounded : state.Grounded)
    (asked : state.control = .use (.element id position) (.read line)) :
    ∃ item,
      state.world.heap.get? id position = some item ∧ state.step = state.give item := by
  obtain ⟨item, found, read⟩ := grounded.readPlace_element (.control (by rw [asked]; rfl))
  refine ⟨item, found, ?_⟩
  rw [State.step, asked]
  dsimp only [State.stepUse]
  rw [read]

/-- An assignment stores its value in the element, and goes on with it. -/
theorem assign_element
    {id position line : Nat}
    {value : Value}
    {rest : List Frame}
    (grounded : state.Grounded)
    (given : state.control = .value value)
    (top : state.stack = .assignedValue line none (.element id position) :: rest) :
    state.step.control = .value value ∧
      state.step.world.heap.get? id position = some value := by
  constructor
  · rw [step_of_value given top]
    rfl
  · apply grounded.get?_step_of_stores
    unfold State.stores?
    rw [given, top]
    rfl

/-- An assignment with an operator stores what the operator makes of the item. -/
theorem combine_element
    {id position line : Nat}
    {op : BinaryOp}
    {value : Value}
    {rest : List Frame}
    (grounded : state.Grounded)
    (given : state.control = .value value)
    (top : state.stack = .assignedValue line (some op) (.element id position) :: rest) :
    ∃ current,
      state.world.heap.get? id position = some current ∧
        ∀ result,
          Value.binary state.world.heap op current value = .ok result →
          state.step.control = .value result ∧
            state.step.world.heap.get? id position = some result := by
  have targets : state.Targets (.element id position) :=
    .frame (by rw [top]; exact List.mem_cons_self) rfl
  obtain ⟨current, found, read⟩ := grounded.readPlace_element targets
  refine ⟨current, found, fun result computed => ⟨?_, ?_⟩⟩
  · rw [step_of_value given top]
    change ((state.popped rest).finishAssign line (some op) _ value).control = _
    have readPopped : (state.popped rest).readPlace (.element id position) = .ok current := read
    have computedPopped :
        Value.binary (state.popped rest).world.heap op current value = .ok result := computed
    unfold State.finishAssign
    dsimp only
    rw [readPopped]
    dsimp only
    rw [computedPopped]
    rfl
  · apply grounded.get?_step_of_stores
    unfold State.stores?
    rw [given, top]
    dsimp only
    rw [State.combined?_eq_some read computed]
    rfl

/-- A step of an element stores the stepped item. -/
theorem update_element
    {id position line : Nat}
    {direction : Script.Step}
    {fixity : Fixity}
    (grounded : state.Grounded)
    (asked : state.control = .use (.element id position) (.update line direction fixity)) :
    ∃ current,
      state.world.heap.get? id position = some current ∧
        ∀ updated,
          Value.binary state.world.heap (stepOperator direction) current (.int 1) = .ok updated →
          state.step.control = .value (stepResult fixity current updated) ∧
            state.step.world.heap.get? id position = some updated := by
  obtain ⟨current, found, read⟩ := grounded.readPlace_element (.control (by rw [asked]; rfl))
  refine ⟨current, found, fun updated computed => ⟨?_, ?_⟩⟩
  · rw [State.step, asked]
    dsimp only [State.stepUse, State.finishUpdate]
    rw [read]
    dsimp only
    rw [computed]
    cases fixity <;> rfl
  · apply grounded.get?_step_of_stores
    unfold State.stores?
    rw [asked]
    dsimp only
    rw [State.combined?_eq_some read computed]
    rfl

end State.Grounded

end Steps

end Machine

end LedSketch
