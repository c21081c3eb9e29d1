import LedSketch.Proofs.Machine.Scoping
import LedSketch.Proofs.Machine.Trace
import LedSketch.Proofs.Machine.Values
import LedSketch.Proofs.Script.OrderedScopes
import LedSketch.Proofs.Script.Renumbering

namespace LedSketch.Machine

/-!
# Numbers given in a run

A run numbers its scopes and its declaration events as it comes to them.  The numbers that
occur in a state have been given before, so the next ones are new.
-/

open Script

namespace State

section Births

variable (state : State)

theorem nextBirth_giveOperation
    (line : Nat)
    (computed : Except TypeFault Value) :
    (state.giveOperation line computed).nextBirth = state.nextBirth := by
  cases computed <;> rfl

/-- To begin an expression declares no function. -/
theorem nextBirth_stepEval (expr : Expr) : (state.stepEval expr).nextBirth = state.nextBirth := by
  unfold stepEval
  split <;> first | rfl | (split <;> rfl)

/-- Functions are declared when a block is entered, not before. -/
theorem nextBirth_stepExec (stmt : Stmt) : (state.stepExec stmt).nextBirth = state.nextBirth := by
  unfold stepExec
  split <;> first | rfl | (split <;> rfl)

theorem nextBirth_stepDeclare (declarators : List Declarator) :
    (state.stepDeclare declarators).nextBirth = state.nextBirth := by
  unfold stepDeclare
  split
  · rfl
  · split <;> rfl

theorem nextBirth_enterCases (cases : List SwitchCase) :
    (state.enterCases cases).nextBirth = state.nextBirth := by
  cases cases <;> rfl

/-- To look for a case declares no function. -/
theorem nextBirth_stepFindCase
    (value : Value)
    (rest all : List SwitchCase) :
    (state.stepFindCase value rest all).nextBirth = state.nextBirth := by
  unfold stepFindCase
  split
  · exact nextBirth_enterCases state _
  · split <;> rfl

theorem nextBirth_stepArguments
    (line : Nat)
    (callee : Callee)
    (done : List Value)
    (rest : List Expr) :
    (state.stepArguments line callee done rest).nextBirth = state.nextBirth := by
  unfold stepArguments
  split
  · split <;> rfl
  · rfl

/-- To store a value declares no function. -/
theorem nextBirth_storeAndGive
    (line : Nat)
    (place : Place)
    (stored given : Value) :
    (state.storeAndGive line place stored given).nextBirth = state.nextBirth := by
  unfold storeAndGive writePlace
  rcases place with name | ⟨id, position⟩
  · dsimp only
    cases state.scopes.set? name stored <;> rfl
  · rfl

theorem nextBirth_finishAssign
    (line : Nat)
    (op : Option BinaryOp)
    (place : Place)
    (value : Value) :
    (state.finishAssign line op place value).nextBirth = state.nextBirth := by
  unfold finishAssign
  split
  · exact nextBirth_storeAndGive ..
  · split
    · rfl
    · split
      · rfl
      · exact nextBirth_storeAndGive ..

theorem nextBirth_stepUse
    (place : Place)
    (wanted : PlaceUse) :
    (state.stepUse place wanted).nextBirth = state.nextBirth := by
  unfold stepUse finishUpdate
  split
  · split <;> rfl
  · rfl
  · split
    · rfl
    · split
      · rfl
      · exact nextBirth_storeAndGive ..

/-- A function that is entered has been declared before. -/
theorem nextBirth_stepCall
    (callee : Value)
    (arguments : List Value)
    (line : Nat) :
    (state.stepCall callee arguments line).nextBirth = state.nextBirth := by
  cases callee with
  | function closure =>
      unfold stepCall enterFunction
      dsimp only
      split
      · rfl
      · split <;> rfl
  | builtin builtin =>
      unfold stepCall callNative
      dsimp only
      split <;> rfl
  | _ => rfl

theorem nextBirth_stepInvoke
    (object : Value)
    (name : String)
    (arguments : List Value)
    (line : Nat) :
    (state.stepInvoke object name arguments line).nextBirth = state.nextBirth := by
  unfold stepInvoke
  split
  · split <;> rfl
  · rfl

/-- To bind parameters declares no function. -/
theorem nextBirth_stepBind
    (parameters : List Parameter)
    (arguments : List Value)
    (body : List Stmt) :
    (state.stepBind parameters arguments body).nextBirth = state.nextBirth := by
  unfold stepBind
  split
  · rfl
  · split
    · rfl
    · split <;> rfl

/-- To take a click declares no function. -/
theorem nextBirth_stepNextClick : state.stepNextClick.nextBirth = state.nextBirth := by
  unfold stepNextClick
  dsimp only
  split
  · rfl
  · split
    · rfl
    · split <;> rfl

theorem nextBirth_stepLoopTop (main : Value) :
    (state.stepLoopTop main).nextBirth = state.nextBirth := by
  unfold stepLoopTop
  split
  · split <;> rfl
  · rfl

/-- A value that is given declares no function. -/
theorem nextBirth_stepValue
    (value : Value)
    (frame : Frame) :
    (state.stepValue value frame).nextBirth = state.nextBirth := by
  cases frame with
  | unaryOperand | rightOperand | castOperand => exact nextBirth_giveOperation ..
  | assignedValue => exact nextBirth_finishAssign ..
  | switchTest wanted rest cases =>
      unfold stepValue
      dsimp only
      split
      · exact nextBirth_enterCases ..
      · rfl
  | indexPosition line object wanted =>
      unfold stepValue
      dsimp only
      split
      · rfl
      · split <;> rfl
  | branchTest whenTrue whenFalse =>
      unfold stepValue
      dsimp only
      split
      · rfl
      · split <;> rfl
  | logicalLeft | memberObject | loopTest | delayEnd =>
      unfold stepValue
      dsimp only
      split <;> rfl
  | _ => rfl

/-- To leave a frame declares no function. -/
theorem nextBirth_stepFlow
    (flow : Flow)
    (frame : Frame) :
    (state.stepFlow flow frame).nextBirth = state.nextBirth := by
  cases frame with
  | blockRest | loopStart | loopBody | caseRest | topLevel => cases flow <;> rfl
  | _ => rfl

theorem nextBirth_stepRaise (frame : Frame) :
    (state.stepRaise frame).nextBirth = state.nextBirth := by
  cases frame <;> rfl

/-- Only to enter a block uses up the number of a declaration event. -/
theorem nextBirth_step :
    state.step.nextBirth = state.nextBirth ∨
      (∃ body, state.control = .enterBlock body) ∧ state.step.nextBirth = state.nextBirth + 1 := by
  unfold step
  cases state.control with
  | enterBlock body => exact .inr ⟨⟨body, rfl⟩, rfl⟩
  | eval expr => exact .inl (nextBirth_stepEval ..)
  | exec stmt => exact .inl (nextBirth_stepExec ..)
  | declare declarators => exact .inl (nextBirth_stepDeclare ..)
  | findCase value rest cases => exact .inl (nextBirth_stepFindCase ..)
  | collectArguments line callee done rest => exact .inl (nextBirth_stepArguments ..)
  | use place wanted => exact .inl (nextBirth_stepUse ..)
  | call callee arguments line => exact .inl (nextBirth_stepCall ..)
  | invoke object name arguments line => exact .inl (nextBirth_stepInvoke ..)
  | bindParameters parameters arguments body => exact .inl (nextBirth_stepBind ..)
  | nextClick => exact .inl (nextBirth_stepNextClick ..)
  | loopTop main => exact .inl (nextBirth_stepLoopTop ..)
  | statements rest | cases rest | steps loop rest | arrayItems done rest =>
      cases rest <;> exact .inl rfl
  | turn loop =>
      dsimp only
      unfold stepTurn
      split <;> exact .inl rfl
  | resolve target wanted =>
      dsimp only
      unfold stepResolve
      split <;> exact .inl rfl
  | dispatch =>
      dsimp only
      unfold stepDispatch
      split <;> exact .inl rfl
  | findSetup =>
      dsimp only
      unfold stepFindSetup
      split <;> exact .inl rfl
  | findLoop =>
      dsimp only
      unfold stepFindLoop
      split <;> exact .inl rfl
  | value value =>
      cases state.stack with
      | nil => exact .inl rfl
      | cons frame rest => exact .inl (nextBirth_stepValue ..)
  | flow flow =>
      cases state.stack with
      | nil => exact .inl rfl
      | cons frame rest => exact .inl (nextBirth_stepFlow ..)
  | raise interrupt =>
      cases state.stack with
      | nil => exact .inl rfl
      | cons frame rest => exact .inl (nextBirth_stepRaise ..)
  | suspended | halted => exact .inl rfl

end Births

/-- Births go on from one step to the next. -/
theorem nextBirth_le_step (state : State) : state.nextBirth ≤ state.step.nextBirth := by
  obtain same | ⟨_, more⟩ := state.nextBirth_step
  · exact Nat.le_of_eq same.symm
  · exact Nat.le_of_lt (Nat.lt_of_lt_of_eq (Nat.lt_succ_self _) more.symm)

/-- Numbers of scopes are given, and never taken back. -/
theorem next_le_step (state : State) : state.scopes.next ≤ state.step.scopes.next := by
  have levelled : Levelled fun _ scopes => state.scopes.next ≤ scopes.next :=
    { writes := fun given writes => writes.next ▸ given
      opens := fun given _ => Nat.le_succ_of_le given
      closes := id }
  exact levelled.step (Nat.le_refl _)

end State

/-- A state in which all numbers have been given before, in order. -/
structure State.Numbered (state : State) : Prop where
  values : state.Holds (Value.Known state.scopes.next state.nextBirth)
  scopes : state.scopes.Ordered

/-- The order of the open scopes is kept by opening, closing and writing. -/
theorem levelled_ordered : Levelled fun _ scopes => scopes.Ordered where
  writes ordered := ordered.writes
  opens ordered parent := by
    obtain rfl | isOpen := parent
    · exact ordered.push
    · exact ordered.pushUnder (ordered.lt_of_isOpen isOpen)
  closes ordered := ordered.pop

namespace State.Numbered

variable {state : State}

/-- The functions of a block that is entered are numbered like the next scope and event. -/
theorem step (numbered : state.Numbered) : state.step.Numbered := by
  have sooner : ∀ value,
      Value.Known state.scopes.next state.nextBirth value →
        Value.Known state.step.scopes.next state.step.nextBirth value := by
    intro value known closure isFunction
    obtain ⟨scope, birth⟩ := known closure isFunction
    exact ⟨Nat.lt_of_lt_of_le scope state.next_le_step,
      Nat.lt_of_lt_of_le birth state.nextBirth_le_step⟩
  refine ⟨(numbered.values.mono sooner).step_of_declared (concernsFunctions_known _ _) ?_,
    levelled_ordered.step numbered.scopes⟩
  rintro body control function - closure ⟨rfl⟩
  have born : state.step.nextBirth = state.nextBirth + 1 := by
    rw [State.step, control]
  exact ⟨Nat.lt_of_lt_of_le numbered.scopes.current_lt state.next_le_step,
    Nat.lt_of_lt_of_eq (Nat.lt_succ_self _) born.symm⟩

/-- The host that polls has no part in the numbers. -/
theorem wake
    (numbered : state.Numbered)
    (host : Host) :
    (state.wake host).Numbered :=
  ⟨numbered.values.wake (concernsFunctions_known _ _) host, numbered.scopes⟩

/-- At first only the outermost scope has a number. -/
theorem begin
    (config : Config)
    (program : Program)
    (host : Host) :
    (State.begin config program host).Numbered :=
  ⟨.begin (concernsFunctions_known _ _) (fun _ _ => Value.noConfusion) config program host,
    .ofBindings _⟩

end State.Numbered

/-- In every state that a run comes to, all numbers have been given before. -/
theorem Trace.numbered
    {initial final : State}
    {later : List State}
    (trace : Trace initial later final)
    (numbered : initial.Numbered) :
    (∀ state ∈ later, state.Numbered) ∧ final.Numbered := by
  induction trace with
  | nil state => exact ⟨by simp, numbered⟩
  | @step state final later onward inductionHypothesis =>
      obtain ⟨all, last⟩ := inductionHypothesis numbered.step
      exact ⟨List.forall_mem_cons.mpr ⟨numbered, all⟩, last⟩
  | wake host resting onward inductionHypothesis =>
      exact inductionHypothesis (numbered.wake host)

end LedSketch.Machine
