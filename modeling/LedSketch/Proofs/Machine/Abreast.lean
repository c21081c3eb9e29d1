import LedSketch.Proofs.Machine.Alike
import LedSketch.Proofs.Machine.Floor
import LedSketch.Proofs.Machine.Stale

namespace LedSketch.Machine

/-!
# Runs abreast

Programs that are rearranged declare the same functions when they begin.  After that the
declaration of a function is passed in three steps that change nothing, so that runs of
both programs get to the same statements, but not in the same number of steps.
-/

open Script (Function Program Scopes Stmt Value)

/-- The frames below the statement of a program that is executed. -/
def awaiting (rest : List Stmt) : List Frame := [.blockRest rest, .topLevel]

/--
Two runs that have come equally far in rearranged programs.  The second one has at most so
many declarations of functions yet to pass.
-/
inductive State.Abreast (pending : Nat) : State → State → Prop where
  | entering
      {state other : State}
      {program otherProgram : Program}
      (alike : state.Alike other)
      (onTop : state.stack = [.topLevel])
      (rearranged : program.Rearranged otherProgram)
      (within : (Stmt.functions otherProgram.body).length ≤ pending) :
      Abreast pending
        (state.goto (.enterBlock program.body))
        (other.goto (.enterBlock otherProgram.body))
  | between
      {state other : State}
      {rest otherRest : List Stmt}
      (alike : state.Alike other)
      (onTop : state.stack = [.topLevel])
      (actions : Stmt.actions rest = Stmt.actions otherRest)
      (within : (Stmt.functions otherRest).length ≤ pending) :
      Abreast pending (state.goto (.statements rest)) (other.goto (.statements otherRest))
  | inside
      {state other : State}
      {rest otherRest : List Stmt}
      (alike : state.Alike other)
      (actions : Stmt.actions rest = Stmt.actions otherRest)
      (within : (Stmt.functions otherRest).length ≤ pending) :
      Abreast pending (state.onFloor (awaiting rest)) (other.onFloor (awaiting otherRest))
  | beyond
      {state other : State}
      (alike : state.Alike other) :
      Abreast pending state other

namespace State

/-- A run passes the declarations of functions in front of the next action. -/
theorem pass_functions
    (state : State)
    (rest : List Stmt) :
    ∃ passed onward,
      passed + (Stmt.functions onward).length = (Stmt.functions rest).length ∧
        (Stmt.actions rest = [] ∧ onward = [] ∨
          ∃ action later,
            Stmt.actions rest = action :: Stmt.actions later ∧ onward = action :: later) ∧
        ∀ steps,
          (state.goto (.statements rest)).advance (3 * passed + steps) =
            (state.goto (.statements onward)).advance steps := by
  induction rest with
  | nil => exact ⟨0, [], rfl, .inl ⟨rfl, rfl⟩, fun steps => by rw [Nat.mul_zero, Nat.zero_add]⟩
  | cons stmt rest inductionHypothesis =>
      cases stmt with
      | function line name parameters body =>
          obtain ⟨passed, onward, count, next, reaches⟩ := inductionHypothesis
          refine ⟨passed + 1, onward, ?_, next, fun steps => ?_⟩
          · have oneMore :
                Stmt.functions (.function line name parameters body :: rest) =
                  ⟨line, name, parameters, body⟩ :: Stmt.functions rest :=
              rfl
            rw [oneMore, List.length_cons, ← count]
            omega
          · have three : 3 * (passed + 1) + steps = (3 * passed + steps) + 1 + 1 + 1 := by
              omega
            rw [three, ← reaches steps]
            rfl
      | _ =>
          exact ⟨0, _, Nat.zero_add _, .inr ⟨_, rest, rfl, rfl⟩,
            fun steps => by rw [Nat.mul_zero, Nat.zero_add]⟩

namespace Abreast

variable {pending : Nat} {state other : State}

/-- Runs that are abreast but for some declarations are so but for more. -/
theorem mono
    {more : Nat}
    (abreast : Abreast pending state other)
    (less : pending ≤ more) :
    Abreast more state other := by
  cases abreast with
  | entering alike onTop rearranged within =>
      exact .entering alike onTop rearranged (Nat.le_trans within less)
  | between alike onTop actions within =>
      exact .between alike onTop actions (Nat.le_trans within less)
  | inside alike actions within => exact .inside alike actions (Nat.le_trans within less)
  | beyond alike => exact .beyond alike

/-- Runs that are abreast rest together. -/
theorem paused (abreast : Abreast pending state other) : other.paused = state.paused := by
  cases abreast with
  | entering | between => rfl
  | inside alike | beyond alike =>
      obtain ⟨scopes, same, rfl⟩ := alike
      rfl

/-- Runs that are abreast are polled with the same result. -/
theorem pollResult (abreast : Abreast pending state other) :
    other.pollResult = state.pollResult := by
  cases abreast with
  | entering | between => rfl
  | inside alike | beyond alike =>
      obtain ⟨scopes, same, rfl⟩ := alike
      rfl

/-- Runs that are abreast have the same arrays and board. -/
theorem world (abreast : Abreast pending state other) : other.world = state.world := by
  cases abreast with
  | entering alike | between alike | inside alike | beyond alike => exact alike.world

theorem length_stack (abreast : Abreast pending state other) :
    other.stack.length = state.stack.length := by
  cases abreast with
  | entering alike | between alike | beyond alike => exact congrArg List.length alike.stack
  | inside alike =>
      dsimp only [onFloor]
      rw [List.length_append, List.length_append, alike.stack]
      rfl

/-- Whoever polls, runs stay abreast. -/
theorem attach
    (abreast : Abreast pending state other)
    (host : Host) :
    Abreast pending (state.attach host) (other.attach host) := by
  cases abreast with
  | entering alike onTop rearranged within =>
      exact .entering (alike.attach host) onTop rearranged within
  | between alike onTop actions within =>
      exact .between (alike.attach host) onTop actions within
  | inside alike actions within => exact .inside (alike.attach host) actions within
  | beyond alike => exact .beyond (alike.attach host)

/-- Runs that are abreast are woken together. -/
theorem wake
    (abreast : Abreast pending state other)
    (resting : state.control = .suspended)
    (host : Host) :
    Abreast pending (state.wake host) (other.wake host) := by
  cases abreast with
  | entering | between => cases resting
  | inside alike actions within => exact .inside (alike.wake host) actions within
  | beyond alike => exact .beyond (alike.wake host)

/-- Rearranged programs begin with the same functions. -/
theorem step_entering
    {program otherProgram : Program}
    (alike : state.Alike other)
    (onTop : state.stack = [.topLevel])
    (rearranged : program.Rearranged otherProgram)
    (within : (Stmt.functions otherProgram.body).length ≤ pending) :
    Abreast pending
      (state.goto (.enterBlock program.body)).step
      (other.goto (.enterBlock otherProgram.body)).step := by
  obtain ⟨scopes, same, rfl⟩ := alike
  have declared :
      Alike
        { state with
          scopes := hoist state.nextBirth program.body state.scopes
          nextBirth := state.nextBirth + 1 }
        { state with
          scopes := hoist state.nextBirth otherProgram.body scopes
          nextBirth := state.nextBirth + 1 } :=
    ⟨_, alike_hoist_of_rearranged rearranged state.nextBirth same, rfl⟩
  exact .between declared onTop rearranged.actions within

/-- At the end of a statement both runs go on with the rests of their programs. -/
theorem step_inside
    {rest otherRest : List Stmt}
    (alike : state.Alike other)
    (actions : Stmt.actions rest = Stmt.actions otherRest)
    (within : (Stmt.functions otherRest).length ≤ pending) :
    Abreast pending
      (state.onFloor (awaiting rest)).step
      (other.onFloor (awaiting otherRest)).step := by
  by_cases working : state.stack ≠ [] ∨ state.control.isResult = false
  · have otherWorking : other.stack ≠ [] ∨ other.control.isResult = false := by
      rw [alike.stack, alike.control]
      exact working
    rw [step_onFloor _ _ working, step_onFloor _ _ otherWorking]
    exact .inside alike.step actions within
  · have taken := alike.goto (.flow .normal)
    obtain ⟨scopes, same, rfl⟩ := alike
    obtain ⟨control, stack, own, world, depth, dispatching, nextBirth, iterations, limit⟩ := state
    rw [not_or, not_not, Bool.not_eq_false] at working
    obtain ⟨rfl, isResult⟩ : stack = [] ∧ control.isResult = true := working
    cases control with
    | value value =>
        -- A value is taken for a normal completion, by the same frame.
        exact .inside taken actions within
    | flow flow =>
        cases flow with
        | normal => exact .between ⟨scopes, same, rfl⟩ rfl actions within
        | _ => exact .beyond ⟨scopes, same, rfl⟩
    | raise interrupt => exact .beyond ⟨scopes, same, rfl⟩
    | _ => contradiction

/-- Both runs get, past some declarations of functions, to states that are abreast. -/
def Rejoins (pending : Nat) (state other : State) : Prop :=
  ∃ passed otherPassed left next otherNext,
    Abreast left next otherNext ∧
      otherPassed + left ≤ pending ∧
      (∀ steps, state.advance (3 * passed + (steps + 1)) = next.advance steps) ∧
      ∀ steps, other.advance (3 * otherPassed + (steps + 1)) = otherNext.advance steps

/-- Runs that are abreast after a step each have rejoined. -/
theorem Rejoins.of_step
    (running : state.paused = false)
    (otherRunning : other.paused = false)
    (next : Abreast pending state.step other.step) :
    Rejoins pending state other := by
  refine ⟨0, 0, pending, _, _, next, Nat.le_of_eq (Nat.zero_add pending), ?_, ?_⟩
  · intro steps
    rw [Nat.mul_zero, Nat.zero_add, advance_succ running]
  · intro steps
    rw [Nat.mul_zero, Nat.zero_add, advance_succ otherRunning]

/-- Between two statements, the next action is the same for both runs. -/
theorem Rejoins.of_between
    {rest otherRest : List Stmt}
    (alike : state.Alike other)
    (onTop : state.stack = [.topLevel])
    (actions : Stmt.actions rest = Stmt.actions otherRest)
    (within : (Stmt.functions otherRest).length ≤ pending) :
    Rejoins pending (state.goto (.statements rest)) (other.goto (.statements otherRest)) := by
  obtain ⟨passed, onward, _, next, reaches⟩ := state.pass_functions rest
  obtain ⟨otherPassed, otherOnward, count, otherNext, otherReaches⟩ :=
    other.pass_functions otherRest
  rw [← actions] at otherNext
  have left : otherPassed + (Stmt.functions otherOnward).length ≤ pending :=
    Nat.le_trans (Nat.le_of_eq count) within
  obtain ⟨none, rfl⟩ | ⟨action, later, some, rfl⟩ := next
  · obtain ⟨_, rfl⟩ | ⟨action, later, some, _⟩ := otherNext
    · exact ⟨passed, otherPassed, _, _, _, .beyond (alike.goto (.flow .normal)), left,
        fun steps => reaches (steps + 1), fun steps => otherReaches (steps + 1)⟩
    · cases none.symm.trans some
  · obtain ⟨none, _⟩ | ⟨otherAction, otherLater, otherSome, rfl⟩ := otherNext
    · cases none.symm.trans some
    · obtain ⟨rfl, sameLater⟩ := List.cons.inj (some.symm.trans otherSome)
      have inside :=
        Abreast.inside ((alike.popped []).goto (.exec action)) sameLater (Nat.le_refl _)
      have fewer :=
        ((List.sublist_cons_self action otherLater).filterMap Stmt.function?).length_le
      refine ⟨passed, otherPassed, _, _, _, inside,
        Nat.le_trans (Nat.add_le_add_left fewer otherPassed) left, ?_, ?_⟩
      · intro steps
        rw [reaches (steps + 1)]
        cases state
        cases onTop
        rfl
      · intro steps
        rw [otherReaches (steps + 1)]
        cases other
        cases alike.stack.trans onTop
        rfl

/-- Runs that are abreast are so again after some steps of both. -/
theorem rejoins
    (abreast : Abreast pending state other)
    (running : state.paused = false) :
    Rejoins pending state other := by
  have otherRunning := abreast.paused.trans running
  cases abreast with
  | entering alike onTop rearranged within =>
      exact .of_step running otherRunning (step_entering alike onTop rearranged within)
  | between alike onTop actions within => exact .of_between alike onTop actions within
  | inside alike actions within =>
      exact .of_step running otherRunning (step_inside alike actions within)
  | beyond alike => exact .of_step running otherRunning (.beyond alike.step)

/-- If one run pauses, the other pauses too, and not much later. -/
theorem settles
    {steps : Nat}
    (abreast : Abreast pending state other)
    (settled : (state.advance steps).paused = true) :
    ∃ otherSteps,
      otherSteps ≤ steps + 3 * pending ∧
        Abreast pending (state.advance steps) (other.advance otherSteps) := by
  induction steps generalizing pending state other with
  | zero => exact ⟨0, Nat.zero_le _, abreast⟩
  | succ steps inductionHypothesis =>
      cases running : state.paused with
      | true =>
          rw [advance_of_paused running]
          exact ⟨0, Nat.zero_le _, abreast⟩
      | false =>
          obtain ⟨passed, otherPassed, left, next, otherNext, onward, fewer, reaches,
            otherReaches⟩ := abreast.rejoins running
          have same : state.advance (steps + 1) = next.advance steps := by
            rw [← reaches steps, Nat.add_comm (3 * passed), state.advance_add (steps + 1),
              advance_of_paused settled]
          rw [same] at settled ⊢
          obtain ⟨otherSteps, enough, stillAbreast⟩ := inductionHypothesis onward settled
          refine ⟨3 * otherPassed + (otherSteps + 1), by omega, ?_⟩
          rw [otherReaches otherSteps]
          exact stillAbreast.mono (by omega)

/-- Runs that are abreast rest at the same place, if the other one may make more steps. -/
theorem goOn
    {config : Config}
    {budget : Nat}
    (abreast : Abreast pending state other)
    (settled : (state.goOn config).paused = true)
    (enough : config.stepBudget + 3 * pending ≤ budget) :
    Abreast pending
      (state.goOn config)
      (other.goOn { config with stepBudget := budget }) := by
  obtain ⟨otherSteps, within, settledAbreast⟩ := abreast.settles settled
  have otherSettled : (other.advance otherSteps).paused = true :=
    settledAbreast.paused.trans settled
  obtain ⟨spare, allowance⟩ : ∃ spare, budget + other.stack.length + 2 = otherSteps + spare := by
    refine Nat.exists_eq_add_of_le ?_
    rw [abreast.length_stack]
    omega
  have same :
      other.goOn { config with stepBudget := budget } = other.advance otherSteps := by
    unfold State.goOn
    rw [allowance, advance_add, advance_of_paused otherSettled]
  rw [same]
  exact settledAbreast

/-- Rearranged programs begin abreast, but for the functions that the other declares. -/
theorem begin
    {program otherProgram : Program}
    (rearranged : program.Rearranged otherProgram)
    (config : Config)
    (budget : Nat)
    (host : Host) :
    Abreast (Stmt.functions otherProgram.body).length
      (State.begin config program host)
      (State.begin { config with stepBudget := budget } otherProgram host) :=
  .entering (.refl (State.begin config program host)) rfl rearranged (Nat.le_refl _)

end Abreast

end State

end LedSketch.Machine
