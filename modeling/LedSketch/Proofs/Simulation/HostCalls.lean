import LedSketch.Proofs.Machine.Causes
import LedSketch.Proofs.Machine.Lines
import LedSketch.Proofs.Script.ParserLines
import LedSketch.Proofs.Simulation.CallDepth

namespace LedSketch

/-!
# Calls for the host

A sketch does not contain the calls of `setup` and `loop`, nor those of its click handlers.
Such a call, and a jump that ends the program, is all that can fail where the machine knows
no line of the sketch.  Any other step fails on one of its lines.
-/

open Script (Builtin Closure Failure IsLineOf RuntimeFault TypeFault Value)

namespace Machine

/-- A call of `setup` or `loop`, or of a handler that is no function of the script. -/
inductive State.CallsForHost (state : State) : Value → Prop where
  | setup
      {closure : Closure}
      (alone : state.stack = [.setupCall]) :
      CallsForHost state (.function closure)
  | loop
      {closure : Closure}
      (alone : state.stack = [.loopCall (.function closure)]) :
      CallsForHost state (.function closure)
  | handler
      {builtin : Builtin}
      {rest : List Frame}
      (waits : state.stack = .handlerCall :: rest) :
      CallsForHost state (.builtin builtin)

/-- The fault of a state that fails with its next step, on no line of the script. -/
inductive State.FailsOffLines (state : State) : RuntimeFault → Prop where
  | strayReturn
      {value : Value}
      {rest : List Frame}
      (completed : state.control = .flow (.returned value))
      (top : state.stack = .topLevel :: rest) :
      FailsOffLines state .strayReturn
  | strayBreak
      {flow : Flow}
      {rest : List Frame}
      (completed : state.control = .flow flow)
      (jumping : flow = .broke ∨ flow = .continued)
      (top : state.stack = .topLevel :: rest) :
      FailsOffLines state .strayBreak
  /-- `setup` or `loop` is called when its scope has been closed. -/
  | outlived
      {closure : Closure}
      (asked : state.control = .call (.function closure) [] 0)
      (entry : state.stack = [.setupCall] ∨ state.stack = [.loopCall (.function closure)])
      (closed : state.scopes.isOpen closure.scope = false) :
      FailsOffLines state (.outlivedScope closure.function.name)
  /-- A native function is called to handle a click, and misses its arguments. -/
  | refused
      {builtin : Builtin}
      {fault : TypeFault}
      {after : World}
      {rest : List Frame}
      (asked : state.control = .call (.builtin builtin) [] 0)
      (waits : state.stack = .handlerCall :: rest)
      (refuses :
        Native.runIn state.world (Native.callBuiltin builtin []) = (.error (.type fault), after)) :
      FailsOffLines state (.type fault)

namespace State

variable {state : State} {fault : RuntimeFault}

/-- What a native function refuses without arguments is a fault of a handler. -/
theorem refused_of_raises
    {builtin : Builtin}
    {rest : List Frame}
    (asked : state.control = .call (.builtin builtin) [] 0)
    (waits : state.stack = .handlerCall :: rest)
    (raises : state.step.control = .raise (.runtime 0 fault)) :
    state.FailsOffLines fault := by
  have stepped : state.step = state.callNative builtin [] 0 := by
    rw [step, asked]
    rfl
  rw [stepped, callNative] at raises
  split at raises
  · cases raises
  · cases raises
  · next refusal after ran =>
      obtain ⟨missing, rfl⟩ := Native.fault_of_no_arguments ran
      cases raises
      exact .refused asked waits ran

/-- With no call in progress, a function can only fail to be called by a closed scope. -/
theorem outlived_of_raises
    {closure : Closure}
    (asked : state.control = .call (.function closure) [] 0)
    (entry : state.stack = [.setupCall] ∨ state.stack = [.loopCall (.function closure)])
    (counted : state.Counted)
    (raises : state.step.control = .raise (.runtime 0 fault)) :
    state.FailsOffLines fault := by
  have noCall : state.depth = 0 := by
    rw [counted.depth]
    obtain alone | alone := entry <;> rw [alone] <;> rfl
  have shallow : ¬ deepestCall ≤ state.depth := by
    rw [noCall]
    decide
  have stepped : state.step = state.enterFunction closure [] 0 := by
    rw [step, asked]
    rfl
  rw [stepped, enterFunction, if_neg shallow] at raises
  split at raises
  · cases raises
  · next closed =>
      cases raises
      exact .outlived asked entry (Bool.eq_false_iff.mpr closed)

/-- A step fails off the lines only by a call for the host, or by a jump at the top level. -/
theorem RaisesOffLines.failsOffLines
    (fails : state.RaisesOffLines fault)
    (counted : state.Counted)
    (calls : ∀ callee, state.control = .call callee [] 0 → state.CallsForHost callee) :
    state.FailsOffLines fault := by
  cases fails with
  | call asked callable raises =>
      cases calls _ asked with
      | setup alone => exact outlived_of_raises asked (.inl alone) counted raises
      | loop alone => exact outlived_of_raises asked (.inr alone) counted raises
      | handler waits => exact refused_of_raises asked waits raises
  | @jump flow rest completed top raises =>
      rw [step_of_flow completed top] at raises
      cases flow with
      | normal => cases raises
      | returned value =>
          cases raises
          exact .strayReturn completed top
      | broke =>
          cases raises
          exact .strayBreak completed (.inl rfl) top
      | continued =>
          cases raises
          exact .strayBreak completed (.inr rfl) top

theorem RaisesOffLines.raises
    (fails : state.RaisesOffLines fault) :
    state.step.control = .raise (.runtime 0 fault) := by
  cases fails <;> assumption

/-- The call of a handler is waited for on top of what the handling has interrupted. -/
theorem stack_of_handledClick
    {id : Nat}
    {clicks : ClickQueue}
    {label : String}
    {handler : Value}
    (selecting : state.control = .nextClick)
    (taken : state.world.host.clicks.take? = some (id, clicks))
    (handled : handlerOf? state.world.board id = some (label, handler))
    (live : state.live = true) :
    state.step.stack = .handlerCall :: state.stack := by
  rw [step, selecting]
  dsimp only
  rw [stepNextClick, taken]
  dsimp only
  rw [handled]
  dsimp only
  rw [if_pos live]
  rfl

/-- A failure that has been raised is kept until the run is halted with it, and then on. -/
theorem failure?_step
    {failure : Failure}
    (failing : state.control.failure? = some failure) :
    state.step.control.failure? = some failure := by
  cases control : state.control with
  | raise interrupt =>
      rw [control] at failing
      cases top : state.stack with
      | nil =>
          have stepped : state.step = state.goto (.halted (.ofInterrupt interrupt)) := by
            rw [step, control]
            dsimp only
            rw [top]
          rw [stepped]
          cases interrupt with
          | failed raised => exact failing
          | superseded => contradiction
      | cons frame rest =>
          rw [step_of_raise control top, (stepRaise_keeps _ frame).1]
          change state.control.failure? = some failure
          rw [control]
          exact failing
  | halted outcome =>
      rw [step, control, control, ← control]
      exact failing
  | _ =>
      rw [control] at failing
      contradiction

end State

end Machine

namespace Reached

open Machine (Frame State)

variable {limit : Option Nat} {passed : List Machine.Milestone} {state : State}

/-- `setup` is looked for when nothing waits. -/
theorem stack_of_findSetup
    (reached : Reached limit passed state)
    (asks : state.control = .findSetup) :
    state.stack = [] := by
  cases reached with
  | beforeSetup _ alone => exact alone
  | program seated | setup _ seated | beforeCall _ _ seated | inCall _ _ seated
  | afterCall _ _ seated => cases seated.notSeat asks
  | beforeLoop _ other | loopTop _ _ other | leaving other | ended other =>
      cases other.symm.trans asks

/-- A value that goes to the sequence of `setup` and `loop` goes to the only frame. -/
theorem alone_of_isSeat
    {value : Value}
    {frame : Frame}
    {rest : List Frame}
    (reached : Reached limit passed state)
    (given : state.control = .value value)
    (top : state.stack = frame :: rest)
    (isSeat : frame.isSeat = true) :
    rest = [] := by
  cases reached with
  | program seated | setup _ seated | beforeCall _ _ seated | inCall _ _ seated
  | afterCall _ _ seated =>
      obtain ⟨rfl, alone⟩ | ⟨notSeat, _⟩ := seated.top_cases top
      · exact (List.cons.inj (top.symm.trans alone)).2
      · cases isSeat.symm.trans notSeat
  | beforeSetup other | beforeLoop _ other | loopTop _ _ other | leaving other | ended other =>
      cases other.symm.trans given

end Reached

namespace Machine

/-- A state on the lines of a text, in which a call on no line is one for the host. -/
structure State.OnLines
    (text : List Char)
    (state : State) :
    Prop where
  within : state.Within (.onLines (IsLineOf text))
  calls :
    ∀ callee arguments,
      state.control = .call callee arguments 0 →
      state.CallsForHost callee

namespace State.OnLines

variable {text : List Char} {state : State} {limit : Option Nat} {passed : List Milestone}

/-- What is called on no line is called for the host. -/
theorem calls_step
    {callee : Value}
    {arguments : List Value}
    (onLines : state.OnLines text)
    (reached : Reached limit passed state)
    (asked : state.step.control = .call callee arguments 0) :
    state.step.CallsForHost callee := by
  have cause := state.cause_step
  rw [asked] at cause
  generalize isCall : Control.call callee arguments 0 = control at cause
  cases cause with
  | ordinary isOrdinary =>
      rw [← isCall] at isOrdinary
      contradiction
  | calls collected =>
      cases isCall
      have control := onLines.within.control
      rw [collected] at control
      exact absurd control.1.1 (Nat.not_succ_le_zero 0)
  | callsSetup asks found =>
      cases isCall
      obtain ⟨closure, rfl, _⟩ := onLines.within.hold.entryPoint? found
      have stepped : state.step = state.into .setupCall (.call (.function closure) [] 0) := by
        rw [step, asks]
        dsimp only
        rw [stepFindSetup, found]
      refine .setup ?_
      rw [stepped]
      exact congrArg _ (reached.stack_of_findSetup asks)
  | @callsLoop value main rest given top =>
      cases isCall
      have kept := onLines.within.hold.stack _ (top ▸ List.mem_cons_self)
      obtain ⟨closure, rfl, _⟩ := kept
      refine .loop ?_
      rw [step_of_value given top]
      exact congrArg _ (reached.alone_of_isSeat given top rfl)
  | @callsHandler id clicks label handler selecting taken handled live =>
      obtain ⟨rfl, rfl, noLine⟩ := Control.call.inj isCall
      obtain ⟨within, callable⟩ := onLines.within.hold.handlerOf? handled
      cases callee with
      | function closure =>
          have here : IsLineOf text closure.function.line := within.here
          have noLine : 0 = closure.function.line := noLine
          exact absurd here.1 (noLine ▸ Nat.not_succ_le_zero 0)
      | builtin builtin =>
          exact .handler (stack_of_handledClick selecting taken handled live)
      | _ => contradiction
  | _ => cases isCall

/-- A step stays on the lines of the text, or it fails off them. -/
theorem step
    (onLines : state.OnLines text)
    (reached : Reached limit passed state)
    (counted : state.Counted) :
    state.step.OnLines text ∨
      ∃ fault,
        state.FailsOffLines fault ∧ state.step.control = .raise (.runtime 0 fault) := by
  by_cases fails : ∃ fault, state.RaisesOffLines fault
  · obtain ⟨fault, raises⟩ := fails
    exact .inr ⟨fault, raises.failsOffLines counted fun callee => onLines.calls callee [],
      raises.raises⟩
  · refine .inl ⟨onLines.within.step fun fault raises => (fails ⟨fault, raises⟩).elim, ?_⟩
    exact fun callee arguments asked => onLines.calls_step reached asked

end State.OnLines

/-- A state on the lines of a text, or behind one that has failed off them. -/
def LeavesLines
    (text : List Char)
    (past : List State)
    (state : State) :
    Prop :=
  state.OnLines text ∨
    ∃ earlier ∈ past,
      ∃ fault,
        earlier.FailsOffLines fault ∧ state.control.failure? = some (.runtime 0 fault)

/-- At every moment a run is on the lines of its sketch, or it has failed off them. -/
theorem Lasting.leavesLines
    (limit : Option Nat)
    (text : List Char) :
    Lasting fun past state =>
      (state.limit = limit ∧ Reached limit (past.filterMap State.milestone?) state) ∧
        (state.Counted ∧ state.Balanced) ∧ LeavesLines text past state where
  step {past state} holds := by
    obtain ⟨reached, counted, leaves⟩ := holds
    refine ⟨(Reached.lasting limit).step reached,
      @Lasting.step _ Lasting.counted past state counted, ?_⟩
    obtain onLines | ⟨earlier, member, fault, fails, failing⟩ := leaves
    · obtain still | ⟨fault, fails, raises⟩ := onLines.step reached.2 counted.1
      · exact .inl still
      · refine .inr ⟨state, List.mem_append_right past List.mem_cons_self, fault, fails, ?_⟩
        rw [raises]
        rfl
    · exact .inr ⟨earlier, List.mem_append_left _ member, fault, fails,
        State.failure?_step failing⟩
  attach {past state} host resting holds := by
    obtain ⟨reached, counted, leaves⟩ := holds
    refine ⟨(Reached.lasting limit).attach host resting reached,
      @Lasting.attach _ Lasting.counted past state host resting counted, ?_⟩
    obtain onLines | failed := leaves
    · refine .inl ⟨State.within_attach onLines.within host, fun callee arguments asked => ?_⟩
      cases resting.symm.trans asked
    · exact .inr failed
  wake {past state} host resting holds := by
    obtain ⟨reached, counted, leaves⟩ := holds
    refine ⟨(Reached.lasting limit).wake host resting reached,
      @Lasting.wake _ Lasting.counted past state host resting counted, ?_⟩
    obtain onLines | ⟨earlier, member, fault, fails, failing⟩ := leaves
    · exact .inl ⟨State.within_wake onLines.within host, fun _ _ => nofun⟩
    · rw [resting] at failing
      contradiction

end Machine

end LedSketch
