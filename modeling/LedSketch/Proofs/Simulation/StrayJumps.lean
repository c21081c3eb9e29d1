import LedSketch.Proofs.Machine.Jumps
import LedSketch.Proofs.Simulation.Lifecycle
import LedSketch.Proofs.Simulation.Outcome

namespace LedSketch

/-!
# Stray jumps

A `break` outside of loops and switches and a `continue` outside of loops make a run fail
if they are executed in the top-level code of the program.  In the body of a function they
end the call instead.
-/

open Script (Declared Function Program Stmt)

/-- Whether a frame is that of a call of a script function. -/
def Machine.Frame.isActivation : Machine.Frame → Bool
  | .activation _ => true
  | _ => false

namespace Machine.Jumping

/-- Jumps come from executed statements at every moment of a run. -/
theorem lasting (script : List Stmt) : Lasting (Jumping script) where
  step jumps := jumps.step
  attach host resting jumps :=
    .of_rest (jumps.runs.attach host) (fun _ jumping => nomatch resting.symm.trans jumping)
      (congrArg Control.failure? resting)
  wake host resting jumps :=
    .of_rest (jumps.runs.wake resting host) (fun _ => Control.noConfusion) rfl

theorem begin
    (config : Config)
    (program : Program)
    (host : Host) :
    Jumping program.body [] (State.begin config program host) :=
  .of_rest (.begin config program host) (fun _ => Control.noConfusion) rfl

end Machine.Jumping

/-- Whether a run has ended with a jump that nothing takes. -/
def Phase.hasStrayed : Phase → Bool
  | .ended (.failed (.runtime 0 .strayBreak)) => true
  | _ => false

theorem Phase.eq_of_hasStrayed
    {phase : Phase}
    (strayed : phase.hasStrayed = true) :
    phase = .ended (.failed (.runtime 0 .strayBreak)) := by
  unfold hasStrayed at strayed
  split at strayed
  · rfl
  · contradiction

namespace Chronicle

open Machine (Frame Flow State catches enclosureOf jump?)

section Jumps

variable (config : Config) (generation : UInt64) (source : String) (hosts : List Host)
variable (program : Program)

theorem jumping_begin
    (parsed : Run.program? source = some program) :
    ∀ other host,
      Run.program? source = some other →
      Machine.Jumping program.body [] (.begin config other host) := by
  intro other host same
  cases parsed.symm.trans same
  exact .begin config program host

/-- An executed statement stands in the script or in the body of a function in progress. -/
theorem reaches_of_moment
    (parsed : Run.program? source = some program)
    {past : List State}
    {state : State}
    {stmt : Stmt}
    (moment : ((start generation source).follow config hosts).Moment past state)
    (executes : state.control = .exec stmt) :
    ∃ owner base,
      Machine.Sited program.body .completion owner state.stack ∧
        owner.Base program.body base ∧ state.Reaches program.body owner base stmt := by
  have jumps :=
    moment.lasting (Machine.Jumping.lasting program.body)
      (jumping_begin config source program parsed)
  have placed := jumps.runs.placed (by rw [executes]; exact fun _ => Machine.Control.noConfusion)
  exact placed.reaches executes

/--
Let a run execute a jump that no loop and no switch of the same body takes.  In the
top-level code it makes the run fail, and in a function it ends the call without a value.
No run fails in this way without such a jump in its top-level code.
-/
theorem stray_jumps
    (parsed : Run.program? source = some program) :
    (∀ past state stmt flow,
        ((start generation source).follow config hosts).Moment past state →
        state.control = .exec stmt →
        jump? stmt = some flow →
        state.Reaches program.body .script [.topLevel] stmt ∧
            (catches (enclosureOf state.stack) flow = false →
              ∃ steps,
                (state.advance steps).control = .halted (.failed (.runtime 0 .strayBreak))) ∨
          ∃ function depth below,
            Declared program.body function ∧
              state.Reaches program.body (.function function) (.activation depth :: below) stmt ∧
              (catches (enclosureOf state.stack) flow = false →
                ∃ steps,
                  (state.advance steps).control = .value .undefined ∧
                    (state.advance steps).stack = below)) ∧
      ∀ line,
        ((start generation source).follow config hosts).run.phase =
          .ended (.failed (.runtime line .strayBreak)) →
        ∃ past state stmt flow,
          ((start generation source).follow config hosts).Moment past state ∧
            state.Reaches program.body .script [.topLevel] stmt ∧
              jump? stmt = some flow ∧ catches (enclosureOf state.stack) flow = false := by
  refine ⟨?_, ?_⟩
  · intro past state stmt flow moment executes jump
    obtain ⟨owner, base, sited, isBase, reaches⟩ :=
      reaches_of_moment config generation source hosts program parsed moment executes
    cases isBase with
    | script => exact .inl ⟨reaches, fun uncaught => reaches.fails sited jump uncaught⟩
    | function depth below declared =>
        exact .inr ⟨_, depth, below, declared, reaches,
          fun uncaught => reaches.returns sited jump uncaught⟩
  · intro line ended
    obtain ⟨error, _, isParseFailure⟩ | ⟨last, halted, jumps⟩ :=
      ended_lasting ended (Machine.Jumping.lasting program.body)
        (jumping_begin config source program parsed)
    · cases isParseFailure
    · obtain ⟨before, state, after, stmt, flow, whole, found⟩ :=
        jumps.stray line (by rw [halted]; rfl)
      exact ⟨before, state, stmt, flow, .running whole, found⟩

end Jumps

/-- Code above the top level of the program is not in a function. -/
theorem not_on_top
    {script : List Stmt}
    {state : State}
    {stmt : Stmt}
    (called : state.stack.any Frame.isActivation = true)
    (reaches : state.Reaches script .script [.topLevel] stmt) :
    False := by
  obtain ⟨inner, whole, allInner⟩ := reaches.stack
  obtain ⟨frame, member, isActivation⟩ := List.any_eq_true.mp called
  rw [whole] at member
  obtain inInner | isTop := List.mem_append.mp member
  · have isInner := allInner frame inInner
    cases frame <;> contradiction
  · cases List.mem_singleton.mp isTop
    contradiction

/-- Whether the next step executes a jump of which neither a loop nor a switch takes care. -/
def strays (state : State) : Bool :=
  match state.control with
  | .exec stmt =>
      match jump? stmt with
      | some flow => !catches (enclosureOf state.stack) flow
      | none => false
  | _ => false

theorem exists_jump_of_strays
    {state : State}
    (stray : strays state = true) :
    ∃ stmt flow,
      state.control = .exec stmt ∧
        jump? stmt = some flow ∧ catches (enclosureOf state.stack) flow = false := by
  unfold strays at stray
  split at stray
  · next stmt executes =>
      split at stray
      · next flow jump =>
          exact ⟨stmt, flow, executes, jump, Bool.not_eq_true' _ ▸ stray⟩
      · contradiction
  · contradiction

/-- A `break` in a function ends the call, and a `continue` behind a loop fails. -/
theorem stray_jumps_in_function_and_behind_loop :
    ∃ (config : Config) (hosts : List Host) (program : Program) (chronicle : Chronicle)
      (past : List State) (inFunction onTop : State) (function : Function) (below : List Frame)
      (stmt : Stmt) (flow : Flow) (steps : Nat),
      Run.program? "function f()\x7bbreak;\x7df();while(1)break;continue;" = some program ∧
        chronicle =
          (start 1 "function f()\x7bbreak;\x7df();while(1)break;continue;").follow config hosts ∧
        chronicle.states[14]? = some inFunction ∧
        Declared program.body function ∧
        (inFunction.advance steps).control = .value .undefined ∧
        (inFunction.advance steps).stack = below ∧
        chronicle.run.phase = .ended (.failed (.runtime 0 .strayBreak)) ∧
        chronicle.Moment past onTop ∧
        onTop.Reaches program.body .script [.topLevel] stmt ∧
        jump? stmt = some flow ∧
        catches (enclosureOf onTop.stack) flow = false := by
  let config : Config := ⟨1, none, .grb, 1000⟩
  let hosts : List Host := [⟨true, .empty, #[], #[]⟩]
  let sketch := "function f()\x7bbreak;\x7df();while(1)break;continue;"
  obtain ⟨checked, strayed, fails⟩ :
      (Run.program? sketch).isSome = true ∧
        ((start 1 sketch).follow config hosts).states[14]?.any (fun state =>
            strays state && state.stack.any Frame.isActivation) = true ∧
        ((start 1 sketch).follow config hosts).run.phase.hasStrayed = true := by
    decide +kernel
  obtain ⟨program, parsed⟩ := Option.isSome_iff_exists.mp checked
  obtain ⟨jumps, failed⟩ := stray_jumps config 1 sketch hosts program parsed
  -- From here on the run stands for itself, so that nothing makes it go through its steps.
  generalize made : (start 1 sketch).follow config hosts = chronicle at *
  have ended := Phase.eq_of_hasStrayed fails
  obtain ⟨inFunction, found, isStray⟩ := (Option.any_eq_true _ _).mp strayed
  obtain ⟨isStray, called⟩ := (Bool.and_eq_true _ _).mp isStray
  obtain ⟨broken, flow, executes, jump, uncaught⟩ := exists_jump_of_strays isStray
  obtain ⟨onTop, _⟩ | ⟨function, depth, below, declared, reaches, returns⟩ :=
    jumps _ inFunction broken flow (.of_getElem? found) executes jump
  · exact (not_on_top called onTop).elim
  · obtain ⟨steps, returned, shorter⟩ := returns uncaught
    obtain ⟨past, onTop, stmt, flow, moment, reached, stray⟩ := failed 0 ended
    exact ⟨config, hosts, program, chronicle, past, inFunction, onTop, function, below, stmt, flow,
      steps, parsed, made.symm, found, declared, returned, shorter, ended, moment, reached, stray⟩

/-- A `break` in the body of a function, outside of loops and switches, is not reported. -/
theorem stray_break_not_reported_in_function :
    ¬ ∀ (config : Config) (generation : UInt64) (source : String) (hosts : List Host)
        (program : Program) (past : List State) (state : State) (owner : Machine.Owner)
        (base : List Frame) (stmt : Stmt) (flow : Flow) (outcome : Outcome),
      Run.program? source = some program →
      ((start generation source).follow config hosts).Moment past state →
      state.Reaches program.body owner base stmt →
      jump? stmt = some flow →
      catches (enclosureOf state.stack) flow = false →
      ((start generation source).follow config hosts).run.phase = .ended outcome →
      ∃ line, outcome = .failed (.runtime line .strayBreak) := by
  intro reported
  let config : Config := ⟨1, none, .grb, 1000⟩
  let hosts : List Host := [⟨true, .empty, #[], #[]⟩]
  let sketch := "function f()\x7bbreak;\x7df();"
  obtain ⟨checked, strayed, finishes⟩ :
      (Run.program? sketch).isSome = true ∧
        ((start 1 sketch).follow config hosts).states[14]?.any strays = true ∧
        ((start 1 sketch).follow config hosts).run.phase.finished? = some 0 := by
    decide +kernel
  obtain ⟨program, parsed⟩ := Option.isSome_iff_exists.mp checked
  have reported := reported config 1 sketch hosts program
  have reached := @reaches_of_moment config 1 sketch hosts program parsed
  -- From here on the run stands for itself, so that nothing makes it go through its steps.
  generalize made : (start 1 sketch).follow config hosts = chronicle at *
  obtain ⟨state, found, isStray⟩ := (Option.any_eq_true _ _).mp strayed
  obtain ⟨stmt, flow, executes, jump, uncaught⟩ := exists_jump_of_strays isStray
  have moment : chronicle.Moment _ state := .of_getElem? found
  obtain ⟨owner, base, _, _, reaches⟩ := reached moment executes
  obtain ⟨line, failed⟩ :=
    reported _ state owner base stmt flow _ parsed moment reaches jump uncaught
      (Phase.eq_of_finished? finishes)
  cases failed

end Chronicle

end LedSketch
