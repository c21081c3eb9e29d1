import LedSketch.Proofs.Machine.Causes
import LedSketch.Proofs.Machine.Origin
import LedSketch.Proofs.Machine.Scoping
import LedSketch.Proofs.Simulation.Outcome

namespace LedSketch

/-!
# Functions of the outermost scope

The outermost scope is open as long as a run lasts.  If a program declares all functions
directly in its body, then all functions of its runs are functions of this scope, and none
of them outlives it.
-/

open Script (Closure Program RuntimeFault Scopes Stmt Value)

namespace Machine

/-- Only functions that were declared in the outermost scope. -/
def IsGlobal : Value → Prop
  | .function closure => closure.scope = Scopes.globalId
  | _ => True

theorem concernsFunctions_isGlobal : Script.ConcernsFunctions IsGlobal := by
  intro value notFunction
  cases value with
  | function closure => exact (notFunction closure rfl).elim
  | _ => trivial

variable {script : List Stmt} {state : State}

/-- Behind the start of a program with all functions on top no function is made. -/
theorem State.Placed.not_hoists
    {closure : Closure}
    (placed : state.Placed script)
    (shallow : ∀ stmt ∈ script, stmt.isShallow = true) :
    ¬ state.Hoists closure := by
  intro hoists
  obtain ⟨kind, owner, sited, fits, stands⟩ := placed
  obtain ⟨body, entering, member⟩ := hoists.declared
  rw [entering] at stands
  have within :
      ∀ function,
        owner = .function function →
        Stmt.areFunctionFree function.body = true := by
    rintro function rfl
    exact sited.declared.areFunctionFree shallow
  have free : Stmt.areFunctionFree body = true := by
    obtain inBody | ⟨bare, function, isOwner, rfl⟩ := stands
    · cases owner with
      | host => exact inBody.areFunctionFree (by simp [Owner.body])
      | script => exact inBody.areFunctionFree shallow
      | function function =>
          have parts := Stmt.areFunctionFree_iff.mp (within function rfl)
          exact inBody.areFunctionFree fun stmt inFunction =>
            Stmt.isShallow_of_isFunctionFree (parts stmt inFunction)
    · exact within function isOwner
  have declaresNone := Stmt.areFunctionFree_iff.mp free _ member
  exact nomatch declaresNone

/-- A run in which all functions are functions of the open outermost scope. -/
structure State.Global
    (script : List Stmt)
    (state : State) :
    Prop where
  runs : state.Runs script
  nested : state.Nested
  values : state.Holds IsGlobal
  lives : ∀ line name, state.control.failure? ≠ some (.runtime line (.outlivedScope name))

namespace State.Global

theorem isOpen (global : state.Global script) : state.scopes.isOpen Scopes.globalId = true :=
  Scopes.Nested.isOpen_globalId global.nested

theorem step
    (global : state.Global script)
    (shallow : ∀ stmt ∈ script, stmt.isShallow = true) :
    state.step.Global script := by
  refine ⟨global.runs.step, global.nested.step, ?_, ?_⟩
  · refine global.values.step concernsFunctions_isGlobal fun closure hoists => ?_
    obtain entering | placed := global.runs.origin
    · exact hoists.scope.trans entering.outermost
    · exact (placed.not_hoists shallow hoists).elim
  · intro line name fails
    obtain earlier | cause := state.failure_step fails
    · exact global.lives line name earlier
    · generalize isRaised : Control.raise _ = raised at cause
      cases cause with
      | ordinary isOrdinary =>
          rw [← isRaised] at isOrdinary
          contradiction
      | passes raised =>
          cases isRaised
          refine global.lives line name ?_
          rw [raised]
          rfl
      | @outlived closure arguments line asked closed =>
          have kept := global.values.control
          rw [asked] at kept
          have inGlobal : closure.scope = Scopes.globalId := kept _ List.mem_cons_self
          rw [inGlobal, global.isOpen] at closed
          contradiction
      | _ => cases isRaised

theorem attach
    (global : state.Global script)
    (host : Host) :
    (state.attach host).Global script :=
  ⟨global.runs.attach host, global.nested, global.values.attach host, global.lives⟩

theorem wake
    (global : state.Global script)
    (resting : state.control = .suspended)
    (host : Host) :
    (state.wake host).Global script :=
  ⟨global.runs.wake resting host, global.nested,
    global.values.wake concernsFunctions_isGlobal host, fun _ _ => nofun⟩

theorem begin
    (config : Config)
    (program : Program)
    (host : Host) :
    (State.begin config program host).Global program.body :=
  ⟨.begin config program host, .begin config program host,
    .begin concernsFunctions_isGlobal (fun _ => trivial) config program host,
    fun _ _ => nofun⟩

/-- All functions stay in the outermost scope, if the program declares them there. -/
theorem lasting (shallow : ∀ stmt ∈ script, stmt.isShallow = true) :
    Lasting fun _ state => State.Global script state where
  step global := global.step shallow
  attach host _ global := global.attach host
  wake host resting global := global.wake resting host

end State.Global

end Machine

namespace Chronicle

section Global

variable (config : Config) (generation : UInt64) (source : String) (hosts : List Host)
variable (program : Program)

theorem global_begin
    (parsed : Run.program? source = some program) :
    ∀ other host,
      Run.program? source = some other →
      (Machine.State.begin config other host).Global program.body := by
  intro other host same
  cases parsed.symm.trans same
  exact .begin config program host

/--
If a program declares its functions directly in its body, then every function of its runs
refers to the outermost scope, which stays open, and no call finds a scope closed.
-/
theorem functions_outlive_no_scope
    (parsed : Run.program? source = some program)
    (onTop : program.functionsOnTop = true) :
    (∀ past state,
        ((start generation source).follow config hosts).Moment past state →
        (∀ closure,
            state.Keeps (.function closure) →
            closure.scope = Scopes.globalId) ∧
          state.scopes.isOpen Scopes.globalId = true ∧
            ∀ line name, state.control.failure? ≠ some (.runtime line (.outlivedScope name))) ∧
      ∀ line name,
        ((start generation source).follow config hosts).run.phase ≠
          .ended (.failed (.runtime line (.outlivedScope name))) := by
  have lasting := Machine.State.Global.lasting (List.all_eq_true.mp onTop)
  have initially := global_begin config source program parsed
  refine ⟨?_, ?_⟩
  · intro past state moment
    have global := moment.lasting lasting initially
    exact ⟨fun closure keeps => global.values.of_keeps keeps, global.isOpen, global.lives⟩
  · intro line name ended
    obtain ⟨error, _, isParseFailure⟩ | ⟨last, halted, global⟩ :=
      ended_lasting ended lasting initially
    · cases isParseFailure
    · refine global.lives line name ?_
      rw [halted]
      rfl

end Global

/-- A handler that keeps itself in an array is a function of the outermost scope. -/
theorem functions_outlive_no_scope_as_handlers :
    ∃ (config : Config) (hosts : List Host) (program : Program) (chronicle : Chronicle)
      (past : List Machine.State) (state : Machine.State) (closure : Closure),
      Run.program?
          "let a=[0];function f()\x7ba[0]=f;\x7dcreateButton(1).onClick(f);delay(5);a[0]();" =
          some program ∧
        program.functionsOnTop = true ∧
        chronicle =
          (start 1
            "let a=[0];function f()\x7ba[0]=f;\x7dcreateButton(1).onClick(f);delay(5);a[0]();").follow
            config hosts ∧
        chronicle.Moment past state ∧
        state.control.calledFunction? = some closure ∧
        closure.scope = Scopes.globalId ∧
        state.scopes.isOpen Scopes.globalId = true := by
  let config : Config := ⟨1, none, .grb, 1000⟩
  let hosts : List Host := [⟨true, .empty, #[], #[]⟩, ⟨true, ⟨[0]⟩, #[], #[]⟩]
  let sketch :=
    "let a=[0];function f()\x7ba[0]=f;\x7dcreateButton(1).onClick(f);delay(5);a[0]();"
  obtain ⟨checked, calls⟩ :
      (Run.program? sketch).any Program.functionsOnTop = true ∧
        (((start 1 sketch).follow config hosts).states[48]?.bind
            (·.control.calledFunction?)).isSome = true := by
    decide +kernel
  obtain ⟨program, parsed, onTop⟩ := (Option.any_eq_true _ _).mp checked
  have applied := (functions_outlive_no_scope config 1 sketch hosts program parsed onTop).1
  -- From here on the run stands for itself, so that nothing makes it go through its steps.
  generalize made : (start 1 sketch).follow config hosts = chronicle at *
  obtain ⟨closure, called⟩ := Option.isSome_iff_exists.mp calls
  obtain ⟨state, found, isCalled⟩ := Option.bind_eq_some_iff.mp called
  have moment : chronicle.Moment (chronicle.states.take 48) state := .of_getElem? found
  obtain ⟨functions, isOpen, _⟩ := applied _ state moment
  have keeps := Machine.State.Keeps.of_calledFunction? isCalled
  exact ⟨config, hosts, program, chronicle, _, state, closure, parsed, onTop, made.symm, moment,
    isCalled, functions closure keeps, isOpen⟩

end Chronicle

end LedSketch
