import LedSketch.Proofs.Machine.Transition
import LedSketch.Proofs.Native.Atomic
import LedSketch.Proofs.Native.Steady

namespace LedSketch

/-!
# Pauses and printing calls of a running program

A step of a run lets time pass, or prints on the serial line, or leaves both as they are.
-/

open Script

/-- A call that prints on the serial line. -/
structure SerialCall where
  text : String
  /-- Whether the call ends the line, as `println` does. -/
  ends : Bool

namespace World

/-- The world some microseconds later. -/
def pass
    (world : World)
    (micros : Nat) :
    World :=
  { world with
    board := { world.board with clock := ⟨world.board.clock.elapsedMicros + micros⟩ } }

/-- The world after a call has printed. -/
def print
    (world : World)
    (call : SerialCall) :
    World :=
  if call.ends then
    world.endLine call.text
  else
    { world with
      board := { world.board with pendingLine := world.board.pendingLine ++ call.text } }

/-- How a printing call ends: only in the current run it prints the text it is given. -/
def printing
    (world : World)
    (ends : Bool) :
    Except CallFault String → Except CallFault Value × World
  | .error fault => (.error fault, world)
  | .ok text =>
      if world.host.live then
        (.ok .undefined, world.print ⟨text, ends⟩)
      else
        (.error .superseded, world)

/-- A text is printed, or it cannot be shown. -/
theorem printing_cases
    (world : World)
    (ends : Bool)
    (shown : Except CallFault String) :
    (∃ text,
      shown = .ok text ∧
        world.printing ends shown = (.ok .undefined, world.print ⟨text, ends⟩)) ∨
      ∃ fault, world.printing ends shown = (.error fault, world) := by
  cases shown with
  | error fault => exact .inr ⟨fault, rfl⟩
  | ok text =>
      rw [printing]
      cases live : world.host.live with
      | false => exact .inr ⟨.superseded, rfl⟩
      | true => exact .inl ⟨text, rfl, rfl⟩

end World

namespace Native

variable {world : World} {name : String} {arguments : List Value} {call : SerialCall}

/-- A text is printed by the current run only. -/
theorem runIn_print (world : World) (text : String) :
    runIn world (print text) =
      if world.host.live then (.ok (), world.print ⟨text, false⟩)
      else (.error .superseded, world) := by
  rw [print, runIn_bind, runIn_checkLive]
  cases live : world.host.live <;> rfl

theorem runIn_printLine (world : World) (text : String) :
    runIn world (printLine text) =
      if world.host.live then (.ok (), world.print ⟨text, true⟩)
      else (.error .superseded, world) := by
  rw [printLine, runIn_bind, runIn_checkLive]
  cases live : world.host.live <;> rfl

/-- The text is found without any change, and printed only in the current run. -/
theorem runIn_printing
    {print : String → Native Unit}
    {ends : Bool}
    (prints :
      ∀ text,
        runIn world (print text) =
          if world.host.live then (.ok (), world.print ⟨text, ends⟩)
          else (.error .superseded, world))
    (arguments : List Value) :
    runIn world (do print (← serialText arguments); return .undefined) =
      world.printing ends (runIn world (serialText arguments)).1 := by
  have same := Quiet.serialText arguments world
  rw [runIn_bind]
  generalize runIn world (serialText arguments) = shown at same ⊢
  obtain ⟨result, after⟩ := shown
  obtain rfl : world = after := same.symm
  cases result with
  | error fault => rfl
  | ok text =>
      dsimp only
      rw [runIn_bind, prints, World.printing]
      cases live : world.host.live <;> rfl

theorem runIn_callSerial_print (world : World) (arguments : List Value) :
    runIn world (callSerial "print" arguments) =
      world.printing false (runIn world (serialText arguments)).1 :=
  runIn_printing (runIn_print world) arguments

theorem runIn_callSerial_println (world : World) (arguments : List Value) :
    runIn world (callSerial "println" arguments) =
      world.printing true (runIn world (serialText arguments)).1 :=
  runIn_printing (runIn_printLine world) arguments

/-- What a call of a method of the serial line prints, if it prints and succeeds. -/
def serialCall?
    (world : World)
    (name : String)
    (arguments : List Value) :
    Option SerialCall :=
  match (runIn world (serialText arguments)).1, (runIn world (callSerial name arguments)).1 with
  | .ok text, .ok _ =>
      if name = "println" then some ⟨text, true⟩
      else if name = "print" then some ⟨text, false⟩
      else none
  | _, _ => none

/-- A method of the serial line prints what it is seen to print, or is steady. -/
theorem callSerial_cases
    (world : World)
    (name : String)
    (arguments : List Value) :
    (∃ call,
      serialCall? world name arguments = some call ∧
        (runIn world (callSerial name arguments)).2 = world.print call) ∨
      serialCall? world name arguments = none ∧
        Steady world (runIn world (callSerial name arguments)).2 := by
  unfold serialCall?
  by_cases isPrintLine : name = "println"
  · subst isPrintLine
    rw [runIn_callSerial_println]
    obtain ⟨text, shown, printed⟩ | ⟨fault, failed⟩ :=
      world.printing_cases true (runIn world (serialText arguments)).1
    · rw [shown] at printed ⊢
      rw [printed]
      exact .inl ⟨_, rfl, rfl⟩
    · rw [failed]
      refine .inr ⟨?_, .refl world⟩
      cases (runIn world (serialText arguments)).1 <;> rfl
  by_cases isPrint : name = "print"
  · subst isPrint
    rw [runIn_callSerial_print]
    obtain ⟨text, shown, printed⟩ | ⟨fault, failed⟩ :=
      world.printing_cases false (runIn world (serialText arguments)).1
    · rw [shown] at printed ⊢
      rw [printed]
      exact .inl ⟨_, rfl, rfl⟩
    · rw [failed]
      refine .inr ⟨?_, .refl world⟩
      cases (runIn world (serialText arguments)).1 <;> rfl
  refine .inr ⟨?_, IsSteady.compositional.callSerial isPrint isPrintLine arguments world⟩
  split
  · rw [if_neg isPrintLine, if_neg isPrint]
  · rfl

end Native

namespace Machine

/-- A step that calls nothing native is steady. -/
theorem Transition.steady
    {state next : State}
    (transition : Transition state next)
    (notNative : state.control.isNative = false) :
    Steady state.world next.world := by
  have steady
      {next : State}
      (sameBoard : next.world.board = state.world.board)
      (sameHost : next.world.host = state.world.host) :
      Steady state.world next.world :=
    ⟨congrArg Board.clock sameBoard, congrArg Board.pendingLine sameBoard,
      congrArg Host.serialLines sameHost⟩
  cases transition with
  | work plain onward => exact steady onward.board onward.host
  | take plain top plainFrame onward => exact steady onward.board onward.host
  | native plain effects onward called =>
      rw [notNative] at called
      contradiction
  | delay line plain effects called =>
      rw [notNative] at called
      contradiction
  | _ => exact ⟨rfl, rfl, rfl⟩

namespace State

variable {state : State}

/-- The microseconds that the next step lets pass, if it makes a pause. -/
def pause? (state : State) : Option Nat :=
  match state.control with
  | .call (.builtin builtin) arguments _ => Native.pause? builtin arguments
  | _ => none

/-- What the next step prints on the serial line, if it does. -/
def serialCall? (state : State) : Option SerialCall :=
  match state.control with
  | .invoke (.object .serial) name arguments _ =>
      Native.serialCall? state.world name arguments
  | _ => none

/-- A call of a native function is one step. -/
theorem step_of_callNative
    {builtin : Builtin}
    {arguments : List Value}
    {line : Nat}
    (called : state.control = .call (.builtin builtin) arguments line) :
    state.step = state.callNative builtin arguments line := by
  rw [step, called]
  rfl

theorem step_of_invoke
    {object : Value}
    {name : String}
    {arguments : List Value}
    {line : Nat}
    (called : state.control = .invoke object name arguments line) :
    state.step = state.stepInvoke object name arguments line := by
  rw [step, called]

/-- What the step makes of the world is what the call makes of it. -/
theorem world_callNative
    (state : State)
    (builtin : Builtin)
    (arguments : List Value)
    (line : Nat) :
    (state.callNative builtin arguments line).world =
      (Native.runIn state.world (Native.callBuiltin builtin arguments)).2 := by
  unfold callNative
  split
  · next ran => exact (congrArg Prod.snd ran).symm
  · next ran => exact (congrArg Prod.snd ran).symm
  · next ran => exact (congrArg Prod.snd ran).symm

theorem world_stepInvoke
    (state : State)
    (handle : Handle)
    (name : String)
    (arguments : List Value)
    (line : Nat) :
    (state.stepInvoke (.object handle) name arguments line).world =
      (Native.runIn state.world (Native.callMethod handle name arguments)).2 := by
  unfold stepInvoke
  dsimp only
  split
  · next ran => exact (congrArg Prod.snd ran).symm
  · next ran => exact (congrArg Prod.snd ran).symm

/-- A native call is one of a function or one of a method. -/
theorem native_cases (native : state.control.isNative = true) :
    (∃ builtin arguments line, state.control = .call (.builtin builtin) arguments line) ∨
      ∃ handle name arguments line,
        state.control = .invoke (.object handle) name arguments line := by
  unfold Control.isNative at native
  split at native
  · next builtin arguments line called => exact .inl ⟨builtin, arguments, line, called⟩
  · next handle name arguments line called =>
      exact .inr ⟨handle, name, arguments, line, called⟩
  · contradiction

/-- Only native calls pause or print. -/
theorem calls_of_not_native (notNative : state.control.isNative = false) :
    state.pause? = none ∧ state.serialCall? = none := by
  constructor
  · unfold pause?
    split
    · next called =>
        rw [called] at notNative
        contradiction
    · rfl
  · unfold serialCall?
    split
    · next called =>
        rw [called] at notNative
        contradiction
    · rfl

/-- A step makes a pause, or prints, or is steady. -/
theorem world_step_cases (state : State) :
    (∃ micros,
      state.pause? = some micros ∧ state.serialCall? = none ∧
        state.step.world = state.world.pass micros) ∨
    (∃ call,
      state.pause? = none ∧ state.serialCall? = some call ∧
        state.step.world = state.world.print call) ∨
    state.pause? = none ∧ state.serialCall? = none ∧
      Steady state.world state.step.world := by
  cases native : state.control.isNative with
  | false =>
      obtain ⟨noPause, noPrint⟩ := calls_of_not_native native
      exact .inr (.inr ⟨noPause, noPrint, state.transition_step.steady native⟩)
  | true =>
      obtain ⟨builtin, arguments, line, called⟩ | ⟨handle, name, arguments, line, called⟩ :=
        native_cases native
      · have isPause : state.pause? = Native.pause? builtin arguments := by
          rw [pause?, called]
        have noPrint : state.serialCall? = none := by rw [serialCall?, called]
        rw [isPause, noPrint, step_of_callNative called, world_callNative]
        cases pauses : Native.pause? builtin arguments with
        | none => exact .inr (.inr ⟨rfl, rfl, Native.steady_of_no_pause state.world pauses⟩)
        | some micros =>
            exact .inl ⟨micros, rfl, rfl,
              congrArg Prod.snd (Native.runIn_of_pause state.world pauses)⟩
      · have noPause : state.pause? = none := by rw [pause?, called]
        rw [noPause, step_of_invoke called, world_stepInvoke, serialCall?, called]
        by_cases isSerial : handle = .serial
        · subst isSerial
          obtain ⟨call, prints, printed⟩ | ⟨silent, steady⟩ :=
            Native.callSerial_cases state.world name arguments
          · exact .inr (.inl ⟨call, rfl, prints, printed⟩)
          · exact .inr (.inr ⟨rfl, silent, steady⟩)
        · refine .inr (.inr ⟨rfl, ?_, ?_⟩)
          · cases handle <;> first | rfl | contradiction
          · exact Native.steady_callMethod state.world
              (fun serial => (isSerial serial).elim) arguments

end State

end Machine

end LedSketch
