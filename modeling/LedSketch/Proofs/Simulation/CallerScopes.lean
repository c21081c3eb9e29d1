import LedSketch.Proofs.Machine.Sheltered
import LedSketch.Proofs.Simulation.GlobalFunctions

namespace LedSketch

/-!
# Callers and their scopes

If a program declares its functions directly in its body, then a call leaves the scopes of
its caller alone, whatever it declares or assigns and whichever handlers run meanwhile.
-/

open Script (Program Scopes Stmt Value)

namespace Machine

variable {script : List Stmt} {past : List State} {state : State}

/-- Every call that has not ended has kept the scopes of its caller. -/
structure Sheltering
    (script : List Stmt)
    (past : List State)
    (state : State) :
    Prop where
  global : state.Global script
  shelters :
    ∀ before calling between callee arguments line,
      past = before ++ calling :: between →
      calling.control = .call callee arguments line →
      (∀ earlier ∈ between, ¬ earlier.Ends calling.stack) →
      state.Sheltered calling.stack calling.scopes.locals calling.scopes.next ∧
        ∀ scope ∈ calling.scopes.locals, scope.Before calling.scopes.next

namespace Sheltering

theorem calls_global (sheltering : Sheltering script past state) :
    ∀ closure,
      state.control.calledFunction? = some closure →
      closure.scope = Scopes.globalId :=
  fun _ called => sheltering.global.values.of_keeps (.of_calledFunction? called)

theorem step
    (sheltering : Sheltering script past state)
    (shallow : ∀ stmt ∈ script, stmt.isShallow = true) :
    Sheltering script (past ++ [state]) state.step := by
  refine ⟨sheltering.global.step shallow, ?_⟩
  intro before calling between callee arguments line whole asked lasts
  have global := sheltering.calls_global
  obtain ⟨rfl, rfl, rfl⟩ | ⟨others, rfl, rfl⟩ := split_last whole
  -- The call is only now made.
  · have nested := sheltering.global.nested
    have earlier := Scopes.Over.before_of_nested nested
    have pending : ¬ state.Ends state.stack := fun ended => by
      have answers := ended.answers
      rw [asked] at answers
      contradiction
    exact ⟨(State.Sheltered.of_call asked nested).step earlier global pending, earlier⟩
  · obtain ⟨lasted, pending⟩ := List.forall_mem_append.mp lasts
    obtain ⟨sheltered, earlier⟩ :=
      sheltering.shelters before calling others callee arguments line rfl asked lasted
    exact ⟨sheltered.step earlier global (pending state List.mem_cons_self), earlier⟩

/-- A property that every run of a program has which declares its functions in its body. -/
theorem lasting (shallow : ∀ stmt ∈ script, stmt.isShallow = true) :
    Lasting (Sheltering script) where
  step sheltering := sheltering.step shallow
  attach host _ sheltering := by
    refine ⟨sheltering.global.attach host, ?_⟩
    intro before calling between callee arguments line whole asked lasts
    obtain ⟨sheltered, earlier⟩ :=
      sheltering.shelters before calling between callee arguments line whole asked lasts
    exact ⟨sheltered.attach host, earlier⟩
  wake host resting sheltering := by
    refine ⟨sheltering.global.wake resting host, ?_⟩
    intro before calling between callee arguments line whole asked lasts
    obtain ⟨sheltered, earlier⟩ :=
      sheltering.shelters before calling between callee arguments line whole asked lasts
    exact ⟨sheltered.wake host, earlier⟩

end Sheltering

end Machine

/-- Whether the last statement of a block at the end of the program is in progress. -/
def Machine.State.endsBlock (state : Machine.State) : Bool :=
  match state.stack with
  | [.discarded, .blockRest [], .openScope, .blockRest [], .topLevel] => true
  | _ => false

theorem Machine.State.stack_of_endsBlock
    {state : Machine.State}
    (ends : state.endsBlock = true) :
    state.stack = [.discarded, .blockRest [], .openScope, .blockRest [], .topLevel] := by
  unfold endsBlock at ends
  split at ends
  · assumption
  · contradiction

namespace Chronicle

section Callers

variable (config : Config) (generation : UInt64) (source : String) (hosts : List Host)
variable (program : Program)

/--
Let a program declare its functions directly in its body.  While a call lasts, all scopes
of its caller but the outermost one stay open with the bindings that they had when the call
was made, and when it has ended, they are the scopes that are open again.
-/
theorem calls_keep_scopes
    (parsed : Run.program? source = some program)
    (onTop : program.functionsOnTop = true)
    (past : List Machine.State)
    (state : Machine.State)
    (moment : ((start generation source).follow config hosts).Moment past state)
    (before between : List Machine.State)
    (calling : Machine.State)
    (callee : Value)
    (arguments : List Value)
    (line : Nat)
    (whole : past = before ++ calling :: between)
    (asked : calling.control = .call callee arguments line)
    (lasts : ∀ earlier ∈ between, ¬ earlier.Ends calling.stack) :
    calling.scopes.locals <:+ state.scopes.locals ∧
      (state.Ends calling.stack → state.scopes.locals = calling.scopes.locals) := by
  have initially :
      ∀ other host,
        Run.program? source = some other →
        Machine.Sheltering program.body [] (.begin config other host) := by
    intro other host same
    refine ⟨global_begin config source program parsed other host same, ?_⟩
    intro before calling between callee arguments line whole
    simp at whole
  have sheltering :=
    moment.lasting (Machine.Sheltering.lasting (List.all_eq_true.mp onTop)) initially
  obtain ⟨sheltered, _⟩ :=
    sheltering.shelters before calling between callee arguments line whole asked lasts
  exact ⟨sheltered.locals, fun ended => sheltered.locals_eq ended.stack⟩

end Callers

/-- A function and a handler assign variables of the name that their caller has in a block. -/
theorem calls_keep_scopes_of_block :
    ∃ (config : Config) (hosts : List Host) (program : Program) (chronicle : Chronicle)
      (before between : List Machine.State) (calling state : Machine.State)
      (closure : Script.Closure),
      Run.program?
          ("function h()\x7blet x=7;x=8;\x7dcreateButton(1).onClick(h);" ++
            "function f()\x7blet x=2;delay(5);x=3;\x7d\x7blet x=1;f();\x7d") =
          some program ∧
        program.functionsOnTop = true ∧
        chronicle =
          (start 1
            ("function h()\x7blet x=7;x=8;\x7dcreateButton(1).onClick(h);" ++
              "function f()\x7blet x=2;delay(5);x=3;\x7d\x7blet x=1;f();\x7d")).follow
            config hosts ∧
        chronicle.Moment (before ++ calling :: between) state ∧
        calling.control.calledFunction? = some closure ∧
        between.length = 59 ∧
        state.Ends calling.stack ∧
        calling.scopes.locals.map (·.bindings.map Prod.fst) = [["x"]] ∧
        state.scopes.locals = calling.scopes.locals := by
  let config : Config := ⟨1, none, .grb, 1000⟩
  let hosts : List Host := [⟨true, .empty, #[], #[]⟩, ⟨true, ⟨[0]⟩, #[], #[]⟩]
  let sketch :=
    "function h()\x7blet x=7;x=8;\x7dcreateButton(1).onClick(h);" ++
      "function f()\x7blet x=2;delay(5);x=3;\x7d\x7blet x=1;f();\x7d"
  obtain ⟨checked, calls, bound, count, pending, ends⟩ :
      (Run.program? sketch).any Program.functionsOnTop = true ∧
        (((start 1 sketch).follow config hosts).states.take 102)[42]?.any (fun calling =>
            calling.endsBlock && calling.control.calledFunction?.isSome) = true ∧
        ((((start 1 sketch).follow config hosts).states.take 102)[42]?.map fun calling =>
            calling.scopes.locals.map (·.bindings.map Prod.fst)) = some [["x"]] ∧
        ((((start 1 sketch).follow config hosts).states.take 102).drop 43).length = 59 ∧
        ((((start 1 sketch).follow config hosts).states.take 102).drop 43).all (fun earlier =>
            earlier.stack.length != 5) = true ∧
        ((start 1 sketch).follow config hosts).states[102]?.any (fun state =>
            state.endsBlock && state.control.isAnswer) = true := by
    decide +kernel
  obtain ⟨program, parsed, onTop⟩ := (Option.any_eq_true _ _).mp checked
  have applied := calls_keep_scopes config 1 sketch hosts program parsed onTop
  -- From here on the run stands for itself, so that nothing makes it go through its steps.
  generalize made : (start 1 sketch).follow config hosts = chronicle at *
  obtain ⟨state, found, isEnd⟩ := (Option.any_eq_true _ _).mp ends
  obtain ⟨sameStack, answers⟩ := (Bool.and_eq_true _ _).mp isEnd
  have moment : chronicle.Moment (chronicle.states.take 102) state := .of_getElem? found
  generalize chronicle.states.take 102 = past at *
  obtain ⟨calling, isCalling, isCall⟩ := (Option.any_eq_true _ _).mp calls
  obtain ⟨callStack, called⟩ := (Bool.and_eq_true _ _).mp isCall
  obtain ⟨closure, called⟩ := Option.isSome_iff_exists.mp called
  rw [isCalling] at bound
  have bound := Option.some.inj bound
  obtain ⟨within, isElement⟩ := List.getElem?_eq_some_iff.mp isCalling
  have whole : past = past.take 42 ++ calling :: past.drop 43 := by
    rw [← isElement, ← List.drop_eq_getElem_cons within]
    exact (List.take_append_drop 42 past).symm
  have lasts : ∀ earlier ∈ past.drop 43, ¬ earlier.Ends calling.stack := by
    intro earlier member ended
    have longer := List.all_eq_true.mp pending earlier member
    rw [ended.stack, Machine.State.stack_of_endsBlock callStack] at longer
    cases longer
  have ended : state.Ends calling.stack :=
    ⟨(Machine.State.stack_of_endsBlock sameStack).trans
      (Machine.State.stack_of_endsBlock callStack).symm, answers⟩
  obtain ⟨arguments, line, asked⟩ := Machine.Control.exists_call_of_calledFunction? called
  have kept :=
    (applied past state moment _ _ calling _ arguments line whole asked lasts).2 ended
  rw [whole] at moment
  exact ⟨config, hosts, program, chronicle, _, _, calling, state, closure, parsed, onTop,
    made.symm, moment, called, count, ended, bound, kept⟩

end Chronicle

end LedSketch
