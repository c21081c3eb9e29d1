import LedSketch.Proofs.Machine.Anchored
import LedSketch.Proofs.Machine.Floor

namespace LedSketch.Machine

/-!
# The declaration of a counter

The statement that declares a counter is one of the top level.  Until the run comes to it,
all other code is at work over the statements that are left; from then on, all code of the
run is within the limits of the counter.
-/

open Script

/-- The initial value that the next step declares the counter with. -/
def State.initial?
    (counter : String)
    (state : State) :
    Option Value :=
  match state.control, state.stack with
  | .value value, .declaredValue name _ :: _ => if name = counter then some value else none
  | _, _ => none

/-- The stored code is within the limits of the counter, whatever it is bound to. -/
structure State.Tracked
    (counter : String)
    (state : State) :
    Prop where
  hold : state.Hold (.counting counter)
  anchored : ∃ found, state.Anchored counter found

/-- What the top level keeps for after an earlier statement or an initial value. -/
inductive Pending (counter : String) : List Frame → Prop where
  | earlierStatement
      {rest : List Stmt}
      (introduces : Stmt.Introduce counter rest) :
      Pending counter [.blockRest rest, .topLevel]
  | earlierVariable
      {name : String}
      {declarators : List Declarator}
      {rest : List Stmt}
      (different : counter ≠ name)
      (introduces : Declarator.Introduce counter declarators)
      (others : ∀ stmt ∈ rest, stmt.Within (.counting counter)) :
      Pending counter [.declaredValue name declarators, .blockRest rest, .topLevel]
  | counter
      {declarators : List Declarator}
      {rest : List Stmt}
      (later : ∀ declarator ∈ declarators, declarator.Within (.counting counter))
      (others : ∀ stmt ∈ rest, stmt.Within (.counting counter)) :
      Pending counter [.declaredValue counter declarators, .blockRest rest, .topLevel]

/-- What the top level goes on with, and over which frames, on its way to the declaration. -/
inductive Approaching (counter : String) : Control → List Frame → Prop where
  | body
      {body : List Stmt}
      (introduces : Stmt.Introduce counter body) :
      Approaching counter (.enterBlock body) [.topLevel]
  | statements
      {rest : List Stmt}
      (introduces : Stmt.Introduce counter rest) :
      Approaching counter (.statements rest) [.topLevel]
  | statement
      {line : Nat}
      {declarators : List Declarator}
      {rest : List Stmt}
      (introduces : Declarator.Introduce counter declarators) :
      Approaching counter (.exec (.declare line declarators)) [.blockRest rest, .topLevel]
  | declarators
      {declarators : List Declarator}
      {rest : List Stmt}
      (introduces : Declarator.Introduce counter declarators) :
      Approaching counter (.declare declarators) [.blockRest rest, .topLevel]

/-- Whether a control is on its way out of the program. -/
def Control.isLeaving : Control → Bool
  | .raise _ => true
  | .halted _ => true
  | _ => false

/-- A state of a run that has not declared its counter yet. -/
inductive Awaiting (counter : String) : State → Prop where
  | working
      {base : State}
      {floor : List Frame}
      (pending : Pending counter floor)
      (within : base.Within (.counting counter))
      (anchored : ∃ found, base.Anchored counter found) :
      Awaiting counter (base.onFloor floor)
  | approaching
      {state : State}
      (tracked : state.Tracked counter)
      (next : Approaching counter state.control state.stack) :
      Awaiting counter state
  | stray
      {state : State}
      {flow : Flow}
      (completed : state.control = .flow flow)
      (notNormal : flow ≠ .normal)
      (alone : state.stack = [.topLevel]) :
      Awaiting counter state
  | leaving
      {state : State}
      (leaving : state.control.isLeaving = true) :
      Awaiting counter state

/-- What a step makes of a run that has not declared its counter yet. -/
def Proceeds
    (counter : String)
    (state : State) :
    Prop :=
  state.initial? counter = none ∧ Awaiting counter state.step ∨
    ∃ value,
      state.initial? counter = some value ∧
        state.step.Within (.counting counter) ∧
          state.step.Anchored counter (some value)

namespace State

variable {counter : String} {state base : State}

/-- Code within the limits of a counter does not declare it. -/
theorem initial?_eq_none
    (within :
      ∀ value frame rest,
        state.control = .value value →
        state.stack = frame :: rest →
        frame.Within (.counting counter)) :
    state.initial? counter = none := by
  unfold initial?
  split
  · next value name declarators rest isValue top =>
      exact if_neg (Ne.symm (within _ _ _ isValue top).1)
  · rfl

/-- The value that a declaration waits for is the initial one. -/
theorem initial?_of_declared
    {value : Value}
    {declarators : List Declarator}
    {rest : List Frame}
    (given : state.control = .value value)
    (top : state.stack = .declaredValue counter declarators :: rest) :
    state.initial? counter = some value := by
  unfold initial?
  rw [given, top]
  exact if_pos rfl

/-- A frame other than a declaration takes no initial value. -/
theorem initial?_of_other
    {frame : Frame}
    {rest : List Frame}
    (top : state.stack = frame :: rest)
    (other : ∀ declarators, frame ≠ .declaredValue counter declarators) :
    state.initial? counter = none := by
  unfold initial?
  rw [top]
  split
  · next value name declarators others isValue same =>
      refine if_neg ?_
      rintro rfl
      exact other declarators (List.cons.inj same).1
  · rfl

/-- Only a value is an initial one. -/
theorem initial?_of_not_value
    {control : Control}
    (same : state.control = control)
    (notValue : ∀ value, control ≠ .value value) :
    state.initial? counter = none :=
  initial?_eq_none fun value _ _ isValue _ => (notValue value (same.symm.trans isValue)).elim

/-- A script that only counts does not declare the counter. -/
theorem Within.initial?
    (within : state.Within (.counting counter)) :
    state.initial? counter = none :=
  initial?_eq_none fun _ _ _ _ top => (within.hold.popped top).1

theorem Within.initial?_onFloor
    {floor : List Frame}
    (within : base.Within (.counting counter))
    (working : base.stack ≠ [] ∨ base.control.isResult = false) :
    (base.onFloor floor).initial? counter = none := by
  refine initial?_eq_none fun value frame rest isValue top => ?_
  have isValue : base.control = .value value := isValue
  have top : base.stack ++ floor = frame :: rest := top
  cases stack : base.stack with
  | nil =>
      rw [stack, isValue] at working
      obtain absurd | absurd := working <;> contradiction
  | cons first others =>
      rw [stack] at top
      obtain ⟨rfl, _⟩ := List.cons.inj top
      exact (within.hold.popped stack).1

/-- What is done next has no part in the scopes. -/
theorem Tracked.goto
    (tracked : state.Tracked counter)
    (control : Control) :
    (state.goto control).Tracked counter := by
  obtain ⟨⟨stack, scopes, world⟩, found, anchored⟩ := tracked
  exact ⟨⟨stack, scopes, world⟩, found, anchored.goto control⟩

/-- Another variable may be declared. -/
theorem Tracked.declare
    {name : String}
    {value : Value}
    (tracked : state.Tracked counter)
    (different : counter ≠ name)
    (within : value.Within (.counting counter)) :
    (state.withScopes (state.scopes.declare name value)).Tracked counter := by
  obtain ⟨hold, found, anchored⟩ := tracked
  exact ⟨hold.withScopes (hold.scopes.declare within), found,
    anchored.declared different value⟩

end State

namespace Pending

variable {counter : String} {base : State} {floor : List Frame}

/-- With nothing at work above them, some frames of the top level are all that is kept. -/
theorem tracked
    {stack : List Frame}
    (within : base.Within (.counting counter))
    (anchored : ∃ found, base.Anchored counter found)
    (empty : base.stack = [])
    (kept : ∀ frame ∈ stack, frame.Within (.counting counter))
    (closes : stack.countP Frame.closes = 0) :
    (base.popped stack).Tracked counter := by
  obtain ⟨found, rooted, nested⟩ := anchored
  refine ⟨⟨kept, within.hold.scopes, within.hold.world⟩, found, rooted, ?_⟩
  rw [empty] at nested
  change _ = stack.countP Frame.closes + 1
  rw [closes]
  exact nested

/-- A frame that does not take a result is put back. -/
theorem putBack
    {control : Control}
    (pending : Pending counter floor)
    (within : base.Within (.counting counter))
    (anchored : ∃ found, base.Anchored counter found)
    (empty : base.stack = [])
    (code : control.Within (.counting counter)) :
    Awaiting counter ((base.popped floor).goto control) := by
  obtain ⟨found, anchored⟩ := anchored
  have same : (base.popped floor).goto control = (base.goto control).onFloor floor := by
    rw [State.onFloor]
    change _ = State.popped (base.goto control) (base.stack ++ floor)
    rw [empty]
    rfl
  rw [same]
  exact .working pending (within.hold.goto code) ⟨found, anchored.goto control⟩

/-- The initial value is bound when it is known. -/
theorem proceeds_of_value
    {value : Value}
    (pending : Pending counter floor)
    (within : base.Within (.counting counter))
    (anchored : ∃ found, base.Anchored counter found)
    (empty : base.stack = [])
    (given : base.control = .value value) :
    Proceeds counter (base.popped floor) := by
  have valueWithin := within.control
  rw [given] at valueWithin
  have stepped
      {frame : Frame}
      {rest : List Frame} :
      (base.popped (frame :: rest)).step =
        ((base.popped (frame :: rest)).popped rest).stepValue value frame :=
    State.step_of_value given rfl
  -- No other scope is open here, so the outermost one binds what is declared.
  have topLevel
      {rest : List Stmt}
      (others : ∀ stmt ∈ rest, stmt.Within (.counting counter)) :
      (base.popped [.blockRest rest, .topLevel]).Tracked counter := by
    refine tracked within anchored empty ?_ rfl
    exact List.forall_mem_cons.mpr ⟨others, List.forall_mem_singleton.mpr trivial⟩
  cases pending with
  | earlierStatement introduces =>
      refine .inl ⟨State.initial?_of_other rfl fun _ => Frame.noConfusion, ?_⟩
      have noCode : Control.Within (.counting counter) (.flow .normal) := trivial
      have onward := putBack (.earlierStatement introduces) within anchored empty noCode
      rw [stepped]
      exact onward
  | @earlierVariable name declarators rest different introduces others =>
      refine .inl ⟨State.initial?_of_other rfl ?_, ?_⟩
      · intro declarators same
        exact different (Frame.declaredValue.inj same).1.symm
      · rw [stepped]
        exact .approaching (((topLevel others).declare different valueWithin).goto _)
          (.declarators introduces)
  | @counter declarators rest later others =>
      refine .inr ⟨value, State.initial?_of_declared given rfl, ?_⟩
      obtain ⟨hold, found, rooted, nested⟩ := topLevel others
      obtain ⟨declared, alone⟩ := rooted.declare nested value
      rw [stepped]
      exact ⟨(hold.withScopes (hold.scopes.declare valueWithin)).goto later, declared, alone⟩

theorem proceeds_of_flow
    {flow : Flow}
    (pending : Pending counter floor)
    (within : base.Within (.counting counter))
    (anchored : ∃ found, base.Anchored counter found)
    (empty : base.stack = [])
    (completed : base.control = .flow flow) :
    Proceeds counter (base.popped floor) := by
  have flowWithin := within.control
  rw [completed] at flowWithin
  have stepped
      {frame : Frame}
      {rest : List Frame} :
      (base.popped (frame :: rest)).step =
        ((base.popped (frame :: rest)).popped rest).stepFlow flow frame :=
    State.step_of_flow completed rfl
  have back (pending : Pending counter floor) :
      Awaiting counter ((base.popped floor).goto (.value flow.value)) :=
    putBack pending within anchored empty flowWithin.value
  refine .inl ⟨State.initial?_of_not_value completed fun _ => Control.noConfusion, ?_⟩
  cases pending with
  | @earlierStatement rest introduces =>
      rw [stepped]
      cases flow with
      | normal =>
          have alone : (base.popped [.topLevel]).Tracked counter :=
            tracked within anchored empty (List.forall_mem_singleton.mpr trivial) rfl
          exact .approaching (alone.goto _) (.statements introduces)
      | returned | broke | continued => exact .stray rfl Flow.noConfusion rfl
  | earlierVariable different introduces others =>
      rw [stepped]
      exact back (.earlierVariable different introduces others)
  | counter later others =>
      rw [stepped]
      exact back (.counter later others)

end Pending

namespace Awaiting

variable {counter : String} {state base : State} {floor : List Frame}

/-- A run that leaves its script declares nothing more. -/
theorem proceeds_of_leaving (leaving : state.control.isLeaving = true) :
    Proceeds counter state := by
  have notValue (value : Value) : state.control ≠ .value value := by
    intro isValue
    rw [isValue] at leaving
    contradiction
  refine .inl ⟨State.initial?_of_not_value rfl notValue, .leaving ?_⟩
  cases control : state.control with
  | raise interrupt =>
      cases top : state.stack with
      | nil => rw [State.step, control]; dsimp only; rw [top]; rfl
      | cons frame rest =>
          rw [State.step_of_raise control top]
          cases frame <;> exact (congrArg Control.isLeaving control).trans rfl
  | halted outcome =>
      have stays : state.step = state := by rw [State.step, control]
      rw [stays, control]
      rfl
  | _ =>
      rw [control] at leaving
      contradiction

/-- The initial value is computed without the counter. -/
theorem proceeds_of_working
    (pending : Pending counter floor)
    (within : base.Within (.counting counter))
    (anchored : ∃ found, base.Anchored counter found) :
    Proceeds counter (base.onFloor floor) := by
  by_cases working : base.stack ≠ [] ∨ base.control.isResult = false
  · refine .inl ⟨within.initial?_onFloor working, ?_⟩
    obtain ⟨found, anchored⟩ := anchored
    rw [State.step_onFloor floor base working]
    exact .working pending (within.step fun _ _ => trivial) ⟨_, anchored.step within⟩
  · obtain ⟨notAbove, isResult⟩ := not_or.mp working
    have empty : base.stack = [] := Classical.not_not.mp notAbove
    have alone : base.onFloor floor = base.popped floor := by
      rw [State.onFloor, empty]
      rfl
    rw [alone]
    cases control : base.control with
    | value value => exact pending.proceeds_of_value within anchored empty control
    | flow flow => exact pending.proceeds_of_flow within anchored empty control
    | raise interrupt => exact proceeds_of_leaving (by rw [State.popped, control]; rfl)
    | _ =>
        rw [control] at isResult
        exact (isResult rfl).elim

/-- Work begins above what the top level keeps. -/
theorem of_into
    {frame : Frame}
    {control : Control}
    {below : List Frame}
    (tracked : state.Tracked counter)
    (whole : state.stack = below)
    (closes : below.countP Frame.closes = 0)
    (pending : Pending counter (frame :: below))
    (code : control.Within (.counting counter)) :
    Awaiting counter (state.into frame control) := by
  obtain ⟨hold, found, anchored⟩ := tracked
  have bare : (state.popped []).Hold (.counting counter) :=
    ⟨List.forall_mem_nil _, hold.scopes, hold.world⟩
  have nested : state.scopes.stack.length = 1 := by
    rw [anchored.nested, whole, closes]
  have onFloor :
      state.into frame control = ((state.popped []).goto control).onFloor (frame :: below) := by
    rw [← whole]
    rfl
  rw [onFloor]
  exact .working pending (bare.goto code) ⟨found, anchored.rooted, nested⟩

/-- The functions of a body that declares a counter have other names. -/
theorem tracked_hoist
    {body : List Stmt}
    (tracked : state.Tracked counter)
    (introduces : Stmt.Introduce counter body)
    (birth : Nat) :
    (state.withScopes (hoist birth body state.scopes)).Tracked counter := by
  have hoisted
      {stmts : List Stmt}
      {before : State}
      (tracked : before.Tracked counter)
      (within : ∀ stmt ∈ stmts, stmt.Within (.counting counter)) :
      (before.withScopes (hoist birth stmts before.scopes)).Tracked counter := by
    obtain ⟨hold, found, anchored⟩ := tracked
    exact ⟨hold.withScopes (hold_hoist birth within hold.scopes), found,
      anchored.withScopes (State.Anchored.rooted_hoist birth within anchored.rooted)⟩
  induction introduces generalizing state with
  | here declared others =>
      have skipped := hoisted tracked others
      exact skipped
  | @later first rest other onward inductionHypothesis =>
      have cons :
          hoist birth (first :: rest) state.scopes =
            hoist birth rest (hoist birth [first] state.scopes) := by
        cases first <;> rfl
      rw [cons]
      exact inductionHypothesis (hoisted tracked (List.forall_mem_singleton.mpr other))

/-- The declaration begins with the counter or with what comes before it. -/
theorem of_declare
    {declarators : List Declarator}
    {rest : List Stmt}
    (tracked : state.Tracked counter)
    (introduces : Declarator.Introduce counter declarators)
    (whole : state.stack = [.blockRest rest, .topLevel]) :
    Awaiting counter (state.stepDeclare declarators) := by
  have kept := tracked.hold.stack
  rw [whole] at kept
  have others : ∀ stmt ∈ rest, stmt.Within (.counting counter) :=
    (List.forall_mem_cons.mp kept).1
  cases introduces with
  | here initial later => exact of_into tracked whole rfl (.counter later others) initial
  | @later first declarators other onward =>
      unfold State.stepDeclare
      dsimp only
      split
      · next init isInit =>
          exact of_into tracked whole rfl (.earlierVariable other.named onward others)
            (other.init init isInit)
      · have noValue : Value.Within (.counting counter) .undefined := trivial
        refine .approaching ((tracked.declare other.named noValue).goto _) ?_
        change Approaching counter (.declare declarators) state.stack
        rw [whole]
        exact .declarators onward

/-- The run comes nearer to the declaration. -/
theorem proceeds_of_approaching
    {control : Control}
    {stack : List Frame}
    (tracked : state.Tracked counter)
    (asks : state.control = control)
    (whole : state.stack = stack)
    (next : Approaching counter control stack) :
    Proceeds counter state := by
  cases next with
  | @body body introduces =>
      refine .inl ⟨State.initial?_of_not_value asks fun _ => Control.noConfusion, ?_⟩
      obtain ⟨hold, found, rooted, nested⟩ :=
        tracked_hoist tracked introduces state.nextBirth
      rw [State.step, asks]
      refine .approaching ⟨⟨hold.stack, hold.scopes, hold.world⟩, found, rooted, nested⟩ ?_
      change Approaching counter (.statements body) state.stack
      rw [whole]
      exact .statements introduces
  | @statements rest introduces =>
      refine .inl ⟨State.initial?_of_not_value asks fun _ => Control.noConfusion, ?_⟩
      rw [State.step, asks]
      cases introduces with
      | @here line declarators rest declared others =>
          obtain ⟨hold, found, anchored⟩ := tracked
          have pushed : (state.push (.blockRest rest)).Tracked counter :=
            ⟨hold.push others, found, anchored.push rfl⟩
          refine .approaching (pushed.goto _) ?_
          change Approaching counter _ (.blockRest rest :: state.stack)
          rw [whole]
          exact .statement declared
      | later other onward => exact of_into tracked whole rfl (.earlierStatement onward) other
  | statement introduces =>
      refine .inl ⟨State.initial?_of_not_value asks fun _ => Control.noConfusion, ?_⟩
      rw [State.step, asks]
      refine .approaching (tracked.goto _) ?_
      change Approaching counter _ state.stack
      rw [whole]
      exact .declarators introduces
  | declarators introduces =>
      refine .inl ⟨State.initial?_of_not_value asks fun _ => Control.noConfusion, ?_⟩
      rw [State.step, asks]
      exact of_declare tracked introduces whole

/-- With every step a run comes closer to the declaration, declares the counter, or fails. -/
theorem proceeds (awaiting : Awaiting counter state) : Proceeds counter state := by
  cases awaiting with
  | working pending within anchored => exact proceeds_of_working pending within anchored
  | approaching tracked next => exact proceeds_of_approaching tracked rfl rfl next
  | @stray _ flow completed notNormal alone =>
      refine .inl ⟨State.initial?_of_not_value completed fun _ => Control.noConfusion, ?_⟩
      rw [State.step_of_flow completed alone]
      cases flow with
      | normal => exact (notNormal rfl).elim
      | returned | broke | continued => exact .leaving rfl
  | leaving leaving => exact proceeds_of_leaving leaving

/-- Only work over the top level can rest. -/
theorem of_suspended
    (awaiting : Awaiting counter state)
    (suspended : state.control = .suspended) :
    ∃ (base : State) (floor : List Frame),
      state = base.onFloor floor ∧ Pending counter floor ∧
        base.Within (.counting counter) ∧ ∃ found, base.Anchored counter found := by
  cases awaiting with
  | working pending within anchored => exact ⟨_, _, rfl, pending, within, anchored⟩
  | approaching tracked next =>
      rw [suspended] at next
      cases next
  | stray completed => cases completed.symm.trans suspended
  | leaving leaving =>
      rw [suspended] at leaving
      contradiction

/-- The host that polls has no part in the declaration. -/
theorem attach
    (awaiting : Awaiting counter state)
    (suspended : state.control = .suspended)
    (host : Host) :
    Awaiting counter (state.attach host) := by
  obtain ⟨base, floor, rfl, pending, within, found, rooted, nested⟩ :=
    awaiting.of_suspended suspended
  exact .working pending (State.within_attach within host) ⟨found, rooted, nested⟩

theorem wake
    (awaiting : Awaiting counter state)
    (suspended : state.control = .suspended)
    (host : Host) :
    Awaiting counter (state.wake host) := by
  obtain ⟨base, floor, rfl, pending, within, found, rooted, nested⟩ :=
    awaiting.of_suspended suspended
  exact .working pending (State.within_wake within host) ⟨found, rooted, nested⟩

/-- A run begins in front of the declaration. -/
theorem begin
    {program : Program}
    (introduces : Stmt.Introduce counter program.body)
    (config : Config)
    (host : Host) :
    Awaiting counter (.begin config program host) := by
  have rooted : (State.begin config program host).scopes.Rooted counter _ :=
    .ofBindings counter Native.bindings
  exact .approaching ⟨State.hold_begin config program host, _, rooted, rfl⟩ (.body introduces)

end Awaiting

end LedSketch.Machine
