import LedSketch.Proofs.Machine.Calm
import LedSketch.Proofs.Machine.Executions
import LedSketch.Proofs.Machine.Exits
import LedSketch.Proofs.Machine.LoopScopes

namespace LedSketch.Machine

/-!
# Counting loops and their `while` forms

A `for` loop with a block for its body does what a block does in which its first clause is
followed by a `while` loop, whose turns run the body and then the steps.  The two open other
scopes and come to other declaration events, so they agree up to a renumbering.
-/

open Script

/-- A `for` statement with a block for its body. -/
structure ForStatement where
  init : ForInit
  test : Option Expr
  steps : List Expr
  body : List Stmt
  /-- The line of the test that is written where there is none. -/
  line : Nat

namespace ForStatement

variable (loop : ForStatement)

/-- The statement itself. -/
def stmt : Stmt := .forLoop loop.init loop.test loop.steps (.block loop.body)

/-- The statements that the first clause stands for. -/
def first : List Stmt :=
  match loop.init with
  | .nothing => []
  | .declare line declarators => [.declare line declarators]
  | .expr expr => [.expr expr]

/-- The test, which is true where there is none. -/
def whileTest : Expr := loop.test.getD (.bool loop.line true)

/-- The statements of a turn: the body, and then each step. -/
def turn : List Stmt := .block loop.body :: loop.steps.map .expr

/-- The `while` loop whose turns run the body and then the steps. -/
def whileStmt : Stmt := .whileLoop loop.whileTest (.block loop.turn)

/-- The block of the first clause and the `while` loop. -/
def asWhile : Stmt := .block (loop.first ++ [loop.whileStmt])

/-- What the `for` loop repeats. -/
def own : Loop := ⟨loop.test, loop.steps, .block loop.body⟩

/-- What the `while` loop repeats. -/
def whileOwn : Loop := ⟨some loop.whileTest, [], .block loop.turn⟩

/-- The frames that wait for the body and the steps of a turn of the `while` loop. -/
def aroundTurn : List Frame := [.openScope, .loopBody loop.whileOwn, .blockRest [], .openScope]

end ForStatement

/-- What an execution of the `for` loop is at, where the `while` loop does the same. -/
inductive Site where
  | started
  | tested
  | body
  | stepped (rest : List Expr)
  | ending

namespace Site

/-- Nothing is declared in the scope of the loop but by its first clause. -/
def sealed : Site → Bool
  | .started => false
  | _ => true

def parting (start : State) : Site → Option Parting
  | .body => some start.loopParting
  | .stepped _ => some start.loopParting
  | _ => none

variable (loop : ForStatement)

/-- The frames that wait for the result in the `for` loop. -/
def frames : Site → List Frame
  | .started => [.loopStart loop.own, .openScope]
  | .tested => [.loopTest loop.own, .openScope]
  | .body => [.loopBody loop.own, .openScope]
  | .stepped rest => [.loopStep loop.own rest, .openScope]
  | .ending => [.openScope]

/-- The frames that wait for the result in the `while` loop. -/
def otherFrames : Site → List Frame
  | .started => [.blockRest [loop.whileStmt], .openScope]
  | .tested => [.loopTest loop.whileOwn, .blockRest [], .openScope]
  | .body => .blockRest (loop.steps.map .expr) :: loop.aroundTurn
  | .stepped rest => .discarded :: .blockRest (rest.map .expr) :: loop.aroundTurn
  | .ending => [.openScope]

end Site

/-- What both loops are about to do, each in its own way. -/
inductive Point where
  | turning
  | entering
  | stepping (rest : List Expr)

namespace Point

def parting (start : State) : Point → Option Parting
  | .turning => none
  | _ => some start.loopParting

variable (loop : ForStatement)

def control : Point → Control
  | .turning => .turn loop.own
  | .entering => .exec (.block loop.body)
  | .stepping rest => .steps loop.own rest

def frames : Point → List Frame
  | .entering => Site.body.frames loop
  | _ => [.openScope]

def otherControl : Point → Control
  | .turning => .turn loop.whileOwn
  | .entering => .exec (.block loop.body)
  | .stepping rest => .statements (rest.map .expr)

def otherFrames : Point → List Frame
  | .turning => [.blockRest [], .openScope]
  | .entering => Site.body.otherFrames loop
  | .stepping _ => loop.aroundTurn

end Point

/-- What two executions have in common that began in one state, up to a renumbering. -/
structure State.Matches
    (start : State)
    (floor : List Frame)
    (numbers : Renumbering)
    (last other : State) :
    Prop where
  known : numbers.Fixes start.scopes.next start.nextBirth
  world : other.world = last.world.renumbered numbers
  suspended : other.control = .suspended ↔ last.control = .suspended
  completed : other.IsCompleted floor ↔ last.IsCompleted floor
  /-- Completed, they differ in the numbers only, and have closed the scopes that they opened. -/
  ending :
    last.IsCompleted floor →
    other = { last.renumbered numbers with stack := floor } ∧
      last.scopes.ids = start.scopes.ids

/-- A state of the `for` loop, and the one of the `while` loop that is as far. -/
inductive Related (loop : ForStatement) (start : State) : State → State → Prop where
  | begin :
      Related loop start (start.goto (.exec loop.stmt)) (start.goto (.exec loop.asWhile))
  | site
      (site : Site)
      {numbers : Renumbering}
      {state other : State}
      (inLoop : InLoop start (site.parting start) numbers state other)
      (calm : state.Calm site.sealed)
      (stays : ¬ state.Leaves .continued) :
      Related loop start
        (state.onFloor (site.frames loop))
        (other.onFloor (site.otherFrames loop))
  | point
      (point : Point)
      {numbers : Renumbering}
      {state other : State}
      (inLoop : InLoop start (point.parting start) numbers state other)
      (alone : state.stack = []) :
      Related loop start
        (state.placed (point.control loop) (point.frames loop))
        (other.placed (point.otherControl loop) (point.otherFrames loop))
  | done
      {numbers : Renumbering}
      {state : State}
      (known : numbers.Fixes start.scopes.next start.nextBirth)
      (completed : state.IsCompleted [])
      (closed : state.scopes.ids = start.scopes.ids) :
      Related loop start state (state.renumbered numbers)

section Steps

variable {loop : ForStatement} {start state other : State} {numbers : Renumbering}

/-- Both executions are at a site with nothing above the frames that wait. -/
theorem Related.at
    {control otherControl : Control}
    (site : Site)
    (inLoop :
      InLoop start (site.parting start) numbers (state.goto control) (other.goto otherControl))
    (alone : state.stack = [])
    (calm : control.isCalm site.sealed = true)
    (stays : ¬ control.Leaves .continued) :
    Related loop start
      (state.placed control (site.frames loop))
      (other.placed otherControl (site.otherFrames loop)) := by
  have isCalm : (state.goto control).Calm site.sealed :=
    .calm calm (by simp [State.goto, alone])
  have staysHere : ¬ (state.goto control).Leaves .continued := by
    unfold State.Leaves State.goto
    rwa [alone]
  have related : Related loop start _ _ := .site site inLoop isCalm staysHere
  have isAlone : (state.goto control).stack = [] := alone
  rw [State.onFloor_of_alone isAlone, State.onFloor_of_alone (inLoop.alone isAlone)] at related
  exact related

/-- Both executions leave a turn. -/
theorem Related.left
    {control otherControl : Control}
    (inLoop :
      InLoop start (some start.loopParting) numbers (state.goto control) (other.goto otherControl))
    (alone : state.stack = [])
    (isResult : control.isResult = true)
    (stays : ¬ control.Leaves .continued) :
    Related loop start
      (state.placed control [.openScope])
      ((other.withScopes other.scopes.pop).placed otherControl [.openScope]) := by
  obtain ⟨whole, joined⟩ := inLoop.join alone isResult
  have calm : control.isCalm Site.ending.sealed = true := by
    cases control <;> first | rfl | cases isResult
  exact .at .ending joined alone calm stays

/-- The next state of the `for` loop is one to which the `while` loop glides. -/
def Onward
    (loop : ForStatement)
    (start state other : State) :
    Prop :=
  ∃ after, Glides other after ∧ Related loop start state.step after

/-- The next state of the `for` loop is told by its step. -/
theorem Onward.of
    {before after next : State}
    (related : Related loop start next after)
    (stepped : before.step = next)
    (glides : Glides other after) :
    Onward loop start before other :=
  ⟨after, glides, stepped ▸ related⟩

/-- To enter a turn declares no function. -/
theorem hoist_turn
    (loop : ForStatement)
    (birth : Nat)
    (scopes : Scopes) :
    hoist birth loop.turn scopes = scopes := by
  have steps : hoist birth (loop.steps.map .expr) scopes = scopes := by
    induction loop.steps with
    | nil => rfl
    | cons step rest inductionHypothesis => exact inductionHypothesis
  exact steps

/-- To enter the block of a `while` form declares no function. -/
theorem hoist_first
    (loop : ForStatement)
    (birth : Nat)
    (scopes : Scopes) :
    hoist birth (loop.first ++ [loop.whileStmt]) scopes = scopes := by
  unfold ForStatement.first
  cases loop.init <;> rfl

section Slips

variable (state : State) (frame : Frame) (frames : List Frame)

/-- The next of some statements is executed. -/
theorem State.slips_statement
    (stmt : Stmt)
    (rest : List Stmt) :
    (state.placed (.statements (stmt :: rest)) frames).Slips
      (state.placed (.exec stmt) (.blockRest rest :: frames)) :=
  ⟨rfl, rfl, rfl, rfl, rfl⟩

/-- After the last of some statements, all of them are completed. -/
theorem State.slips_no_statement :
    (state.placed (.statements []) (frame :: frames)).Slips
      (state.placed (.flow .normal) (frame :: frames)) :=
  ⟨rfl, rfl, rfl, rfl, rfl⟩

/-- After a statement come the others. -/
theorem State.slips_rest (rest : List Stmt) :
    (state.placed (.flow .normal) (.blockRest rest :: frame :: frames)).Slips
      (state.placed (.statements rest) (frame :: frames)) :=
  ⟨rfl, rfl, rfl, rfl, rfl⟩

/-- A jump leaves out the statements behind it. -/
theorem State.slips_out_of_rest
    {flow : Flow}
    (rest : List Stmt)
    (jumps : flow ≠ .normal) :
    (state.placed (.flow flow) (.blockRest rest :: frame :: frames)).Slips
      (state.placed (.flow flow) (frame :: frames)) := by
  cases flow with
  | normal => exact (jumps rfl).elim
  | returned | broke | continued => exact ⟨rfl, rfl, rfl, rfl, rfl⟩

/-- The scope of a block is closed when the block is completed. -/
theorem State.slips_out_of_scope (flow : Flow) :
    (state.placed (.flow flow) (.openScope :: frame :: frames)).Slips
      ((state.withScopes state.scopes.pop).placed (.flow flow) (frame :: frames)) :=
  ⟨rfl, rfl, rfl, rfl, rfl⟩

/-- A return leaves the loop around it. -/
theorem State.slips_out_of_loop
    (loop : Loop)
    (value : Value) :
    (state.placed (.flow (.returned value)) (.loopBody loop :: frame :: frames)).Slips
      (state.placed (.flow (.returned value)) (frame :: frames)) :=
  ⟨rfl, rfl, rfl, rfl, rfl⟩

/-- A `break` completes the loop around it. -/
theorem State.slips_broken (loop : Loop) :
    (state.placed (.flow .broke) (.loopBody loop :: frame :: frames)).Slips
      (state.placed (.flow .normal) (frame :: frames)) :=
  ⟨rfl, rfl, rfl, rfl, rfl⟩

/-- An interrupt leaves what has no scope. -/
theorem State.slips_raised
    (passed : Frame)
    (interrupt : Interrupt)
    (isPlain : passed.isPlain = true)
    (keeps : passed.closes = false) :
    (state.placed (.raise interrupt) (passed :: frame :: frames)).Slips
      (state.placed (.raise interrupt) (frame :: frames)) := by
  cases passed <;> first | exact ⟨rfl, rfl, rfl, rfl, rfl⟩ | contradiction

/-- An interrupt closes the scope of the block that it leaves. -/
theorem State.slips_raised_out_of_scope (interrupt : Interrupt) :
    (state.placed (.raise interrupt) (.openScope :: frame :: frames)).Slips
      ((state.withScopes state.scopes.pop).placed (.raise interrupt) (frame :: frames)) :=
  ⟨rfl, rfl, rfl, rfl, rfl⟩

end Slips

/-- To execute a block that declares no function opens a scope and comes to the statements. -/
theorem glides_block
    {body : List Stmt}
    {after : State}
    (plain : ∀ birth scopes, hoist birth body scopes = scopes)
    (state : State)
    (frames : List Frame)
    (glides : Glides (state.entered.placed (.statements body) (.openScope :: frames)) after) :
    Glides (state.placed (.exec (.block body)) frames) after := by
  let opened :=
    (state.withScopes state.scopes.push).placed (.enterBlock body) (.openScope :: frames)
  have opens : (state.placed (.exec (.block body)) frames).Slips opened :=
    ⟨rfl, rfl, rfl, rfl, rfl⟩
  have hoists : opened.step = state.entered.placed (.statements body) (.openScope :: frames) :=
    congrArg
      (fun scopes =>
        { state with
          control := .statements body
          stack := .openScope :: frames
          scopes := scopes
          nextBirth := state.nextBirth + 1 })
      (plain state.nextBirth state.scopes.push)
  exact .slip opens (.slip ⟨hoists, rfl, rfl, rfl, rfl⟩ glides)

/-- A turn of the `while` loop opens a scope and comes to the body. -/
theorem glides_turn (loop : ForStatement) (other : State) :
    Glides
      (other.placed (.exec (.block loop.turn))
        [.loopBody loop.whileOwn, .blockRest [], .openScope])
      (other.entered.placed (.exec (.block loop.body)) (Site.body.otherFrames loop)) :=
  glides_block (hoist_turn loop) other _ (.last _)

/-- What ends a turn and the loop goes through the frames that wait, and closes the turn. -/
theorem glides_leaving
    {control : Control}
    (loop : ForStatement)
    (other : State)
    (rest : List Stmt)
    (leaves : (∃ value, control = .flow (.returned value)) ∨ ∃ raised, control = .raise raised) :
    Glides
      (other.placed control (.blockRest rest :: loop.aroundTurn))
      ((other.withScopes other.scopes.pop).placed control [.openScope]) := by
  let closed := other.withScopes other.scopes.pop
  obtain ⟨value, rfl⟩ | ⟨raised, rfl⟩ := leaves
  case inl =>
    have leavesRest := other.slips_out_of_rest .openScope
      [.loopBody loop.whileOwn, .blockRest [], .openScope] rest
      (nofun : Flow.returned value ≠ .normal)
    have leavesScope := other.slips_out_of_scope (.loopBody loop.whileOwn)
      [.blockRest [], .openScope] (.returned value)
    have leavesLoop := closed.slips_out_of_loop (.blockRest []) [.openScope] loop.whileOwn value
    exact .slip leavesRest (.slip leavesScope (.slip leavesLoop (.last _)))
  case inr =>
    have leavesRest := other.slips_raised .openScope
      [.loopBody loop.whileOwn, .blockRest [], .openScope] (.blockRest rest) raised rfl rfl
    have leavesScope := other.slips_raised_out_of_scope (.loopBody loop.whileOwn)
      [.blockRest [], .openScope] raised
    have leavesLoop := closed.slips_raised (.blockRest []) [.openScope]
      (.loopBody loop.whileOwn) raised rfl rfl
    exact .slip leavesRest (.slip leavesScope (.slip leavesLoop (.last _)))

/-- How a turn of a loop begins. -/
theorem State.step_turn
    (state : State)
    (turned : Loop)
    (rest : List Frame) :
    (state.placed (.turn turned) rest).step =
      match turned.test with
      | some test => state.placed (.eval test) (.loopTest turned :: rest)
      | none => state.placed (.exec turned.body) (.loopBody turned :: rest) := by
  obtain ⟨test, steps, body⟩ := turned
  cases test <;> rfl

/-- What a tested loop does next. -/
theorem State.step_loopTest
    (state : State)
    (value : Value)
    (tested : Loop)
    (rest : List Frame) :
    (state.placed (.value value) (.loopTest tested :: rest)).step =
      if value.truthy then
        state.placed (.exec tested.body) (.loopBody tested :: rest)
      else
        state.placed (.flow .normal) rest := by
  unfold State.step State.placed
  dsimp only
  unfold State.stepValue
  dsimp only
  split <;> rfl

namespace Onward

/-- After the first clause, the `for` loop begins its turns and the `while` loop is executed. -/
theorem started
    (inLoop : InLoop start none numbers state other)
    (alone : state.stack = [])
    (isResult : state.control.isResult = true)
    (stays : ¬ state.control.Leaves .continued) :
    Onward loop start
      (state.placed state.control (Site.started.frames loop))
      (other.placed (state.control.renumbered numbers) (Site.started.otherFrames loop)) := by
  have same := inLoop.gotoSame
  cases control : state.control <;> rw [control] at isResult stays same
  case value value =>
    -- The frames take no value and are put back.
    exact of (.at .started (inLoop.goto (.flow .normal) rfl) alone rfl nofun) rfl (.last _)
  case flow flow =>
    have ends : Related loop start _ _ := .at .ending same alone rfl stays
    cases flow with
    | normal =>
        have after := other.slips_rest .openScope [] [loop.whileStmt]
        have executes := other.slips_statement [.openScope] loop.whileStmt []
        exact of (.point .turning inLoop alone) rfl (.slip after (.slip executes (.last _)))
    | returned | broke | continued => exact of ends rfl (.last _)
  case raise interrupt => exact of (.at .ending same alone rfl stays) rfl (.last _)
  all_goals cases isResult

/-- The loops enter the body. -/
theorem enters
    (loop : ForStatement)
    (inLoop : InLoop start none numbers state other)
    (alone : state.stack = []) :
    ∃ after,
      Glides
          (other.placed (.exec (.block loop.turn))
            [.loopBody loop.whileOwn, .blockRest [], .openScope])
          after ∧
        Related loop start
          (state.placed (.exec (.block loop.body)) (Site.body.frames loop))
          after := by
  obtain ⟨parted, inTurn⟩ := inLoop.part alone (.exec (.block loop.body)) rfl
  have related : Related loop start _ _ := .point .entering inTurn alone
  exact ⟨_, glides_turn loop other, related⟩

/-- After a test the loops enter the body, or they end. -/
theorem tested
    (inLoop : InLoop start none numbers state other)
    (alone : state.stack = [])
    (isResult : state.control.isResult = true)
    (stays : ¬ state.control.Leaves .continued) :
    Onward loop start
      (state.placed state.control (Site.tested.frames loop))
      (other.placed (state.control.renumbered numbers) (Site.tested.otherFrames loop)) := by
  have same := inLoop.gotoSame
  cases control : state.control <;> rw [control] at isResult stays same
  case value value =>
    have step := state.step_loopTest value loop.own [.openScope]
    have otherStep :=
      other.step_loopTest (value.renumbered numbers) loop.whileOwn [.blockRest [], .openScope]
    rw [Value.truthy_renumbered] at otherStep
    by_cases isTrue : value.truthy = true
    · rw [if_pos isTrue] at step otherStep
      obtain ⟨after, glides, related⟩ := enters loop inLoop alone
      exact of related step (.slip ⟨otherStep, rfl, rfl, rfl, rfl⟩ glides)
    · rw [if_neg isTrue] at step otherStep
      have ends : Related loop start _ _ :=
        .at .ending (inLoop.goto (.flow .normal) rfl) alone rfl nofun
      have after := other.slips_rest .openScope [] []
      exact of ends step (.slip ⟨otherStep, rfl, rfl, rfl, rfl⟩ (.slip after (.last _)))
  case flow flow => exact of (.at .tested (inLoop.answer control) alone rfl nofun) rfl (.last _)
  case raise interrupt =>
    have leavesTest := other.slips_raised (.blockRest []) [.openScope]
      (.loopTest loop.whileOwn) interrupt rfl rfl
    exact of (.at .ending same alone rfl stays) rfl (.slip leavesTest (.last _))
  all_goals cases isResult

/-- After the body come the steps, unless the body is left. -/
theorem body
    (inLoop : InLoop start (some start.loopParting) numbers state other)
    (alone : state.stack = [])
    (isResult : state.control.isResult = true)
    (stays : ¬ state.control.Leaves .continued) :
    Onward loop start
      (state.placed state.control (Site.body.frames loop))
      (other.placed (state.control.renumbered numbers) (Site.body.otherFrames loop)) := by
  have same := inLoop.gotoSame
  cases control : state.control <;> rw [control] at isResult stays same
  case value value =>
    exact of (.at .body (inLoop.goto (.flow .normal) rfl) alone rfl nofun) rfl (.last _)
  case flow flow =>
    cases flow with
    | normal => exact of (.point (.stepping loop.steps) inLoop alone) rfl (.last _)
    | continued => exact (stays rfl).elim
    | broke =>
        let closed := other.withScopes other.scopes.pop
        have leavesRest := other.slips_out_of_rest .openScope
          [.loopBody loop.whileOwn, .blockRest [], .openScope] (loop.steps.map .expr)
          (nofun : Flow.broke ≠ .normal)
        have leavesScope := other.slips_out_of_scope (.loopBody loop.whileOwn)
          [.blockRest [], .openScope] .broke
        have completes := closed.slips_broken (.blockRest []) [.openScope] loop.whileOwn
        have after := closed.slips_rest .openScope [] []
        exact of (.left (inLoop.goto (.flow .normal) rfl) alone rfl nofun) rfl
          (.slip leavesRest (.slip leavesScope (.slip completes (.slip after (.last _)))))
    | returned value =>
        exact of (.left same alone rfl stays) rfl (glides_leaving loop other _ (.inl ⟨_, rfl⟩))
  case raise interrupt =>
    exact of (.left same alone rfl stays) rfl (glides_leaving loop other _ (.inr ⟨_, rfl⟩))
  all_goals cases isResult

/-- After a step come the others, unless it fails. -/
theorem stepped
    {rest : List Expr}
    (inLoop : InLoop start (some start.loopParting) numbers state other)
    (alone : state.stack = [])
    (isResult : state.control.isResult = true) :
    Onward loop start
      (state.placed state.control ((Site.stepped rest).frames loop))
      (other.placed (state.control.renumbered numbers) ((Site.stepped rest).otherFrames loop)) := by
  have same := inLoop.gotoSame
  cases control : state.control <;> rw [control] at isResult same
  case value value =>
    -- The value of a step is dropped.
    have drops :
        (other.placed (.value (value.renumbered numbers))
            ((Site.stepped rest).otherFrames loop)).Slips
          (other.placed (.flow .normal) (.blockRest (rest.map .expr) :: loop.aroundTurn)) :=
      ⟨rfl, rfl, rfl, rfl, rfl⟩
    exact of (.point (.stepping rest) inLoop alone) rfl (.slip drops (.last _))
  case flow flow =>
    exact of (.at (.stepped rest) (inLoop.answer control) alone rfl nofun) rfl (.last _)
  case raise interrupt =>
    have leavesStep := other.slips_raised (.blockRest (rest.map .expr)) loop.aroundTurn
      .discarded interrupt rfl rfl
    exact of (.left same alone rfl nofun) rfl
      (.slip leavesStep (glides_leaving loop other _ (.inr ⟨_, rfl⟩)))
  all_goals cases isResult

/-- At the end both loops close their scope. -/
theorem ending
    (inLoop : InLoop start none numbers state other)
    (alone : state.stack = [])
    (isResult : state.control.isResult = true) :
    Onward loop start
      (state.placed state.control (Site.ending.frames loop))
      (other.placed (state.control.renumbered numbers) (Site.ending.otherFrames loop)) := by
  let left := state.withScopes state.scopes.pop
  let otherLeft := other.withScopes other.scopes.pop
  obtain ⟨scope, outer, top, _, _, others⟩ := inLoop.innermost (by rw [alone]; rfl)
  have closed : left.scopes.ids = start.scopes.ids := by
    unfold left State.withScopes Scopes.pop Scopes.ids
    dsimp only
    rw [top]
    exact others
  have same : otherLeft = left.renumbered numbers :=
    (inLoop.follows.closeScope fun _ isParted => by cases isParted).eq_renumbered
  have sameControl : otherLeft.control = state.control.renumbered numbers := inLoop.follows.control
  have done : Related loop start left (left.renumbered numbers) :=
    .done inLoop.numbering.fixes ⟨alone, isResult⟩ closed
  rw [← same, ← left.placed_of_alone alone,
    ← otherLeft.placed_of_alone (inLoop.alone alone), sameControl] at done
  change Related loop start (left.placed state.control []) _ at done
  have back := inLoop.goto (.flow .normal) rfl
  cases control : state.control <;> rw [control] at isResult done
  case value value => exact of (.at .ending back alone rfl nofun) rfl (.last _)
  case flow flow => exact of done rfl (.last _)
  case raise interrupt => exact of done rfl (.last _)
  all_goals cases isResult

/-- The loops make the same step above the frames that wait. -/
theorem working
    {site : Site}
    (inLoop : InLoop start (site.parting start) numbers state other)
    (calm : state.Calm site.sealed)
    (stays : ¬ state.Leaves .continued)
    (busy : ¬ state.IsCompleted []) :
    Onward loop start
      (state.onFloor (site.frames loop))
      (other.onFloor (site.otherFrames loop)) := by
  have otherBusy : ¬ other.IsCompleted [] := by
    intro completed
    refine busy ⟨List.map_eq_nil_iff.mp (inLoop.follows.stack.symm.trans completed.stack), ?_⟩
    have isResult := completed.isResult
    rwa [inLoop.follows.control, Control.isResult_renumbered] at isResult
  have next : InLoop start (site.parting start) numbers state.step other.step := by
    refine inLoop.step ?_ ?_
    · intro body enters
      exact calm.countP_closes_pos (.inl (by rw [enters]; rfl))
    · intro isParted touches
      have isSealed : site.sealed = true := by
        cases site <;> first | rfl | exact (isParted rfl).elim
      rw [isSealed] at calm
      refine calm.countP_closes_pos ?_
      obtain declares | ⟨frame, top, touches⟩ := touches
      · refine .inl ?_
        cases control : state.control <;> rw [control] at declares <;> first | rfl | cases declares
      · refine .inr ⟨frame, List.mem_of_mem_head? top, ?_⟩
        cases frame <;> first | rfl | simp [Frame.declares, Frame.closes] at touches
  have related : Related loop start _ _ :=
    .site site next calm.step fun leaves => stays (State.leaves_of_step leaves)
  rw [← State.step_onFloor_of_working busy, ← State.step_onFloor_of_working otherBusy] at related
  exact of related rfl (.last _)

/-- The loops go on to the next turn, with a test or without. -/
theorem turning
    (inLoop : InLoop start none numbers state other)
    (alone : state.stack = []) :
    Onward loop start
      (state.placed (.turn loop.own) [.openScope])
      (other.placed (.turn loop.whileOwn) [.blockRest [], .openScope]) := by
  have step := state.step_turn loop.own [.openScope]
  cases given : loop.own.test with
  | some test =>
      rw [given] at step
      have whileTest : loop.whileTest = test := by
        have isTest : loop.test = some test := given
        rw [ForStatement.whileTest, isTest]
        rfl
      have tests : Related loop start _ _ :=
        .at .tested (inLoop.goto (.eval test) rfl) alone rfl nofun
      rw [← whileTest] at tests step
      exact of tests step (.last _)
  | none =>
      rw [given] at step
      have whileTest : loop.whileTest = .bool loop.line true := by
        have isNone : loop.test = none := given
        rw [ForStatement.whileTest, isNone]
        rfl
      obtain ⟨after, glides, related⟩ := enters loop inLoop alone
      have asks :
          (other.placed (.turn loop.whileOwn) [.blockRest [], .openScope]).Slips
            (other.placed (.eval (.bool loop.line true)) (Site.tested.otherFrames loop)) := by
        rw [← whileTest]
        exact ⟨rfl, rfl, rfl, rfl, rfl⟩
      have answers :
          (other.placed (.eval (.bool loop.line true)) (Site.tested.otherFrames loop)).Slips
            (other.placed (.value (.bool true)) (Site.tested.otherFrames loop)) :=
        ⟨rfl, rfl, rfl, rfl, rfl⟩
      have isTrue := other.step_loopTest (.bool true) loop.whileOwn [.blockRest [], .openScope]
      exact of related step
        (.slip asks (.slip answers (.slip ⟨isTrue, rfl, rfl, rfl, rfl⟩ glides)))

/-- The loops execute the body. -/
theorem entering
    (contained : ¬ Stmt.BodyLeaves .continued loop.body)
    (inLoop : InLoop start (some start.loopParting) numbers state other)
    (alone : state.stack = []) :
    Onward loop start
      (state.placed (.exec (.block loop.body)) (Site.body.frames loop))
      (other.placed (.exec (.block loop.body)) (Site.body.otherFrames loop)) := by
  have begun := inLoop.goto (.exec (.block loop.body)) rfl
  have isAlone : (state.goto (.exec (.block loop.body))).stack = [] := alone
  have otherAlone := begun.alone isAlone
  have grown : (state.goto (.exec (.block loop.body))).step.stack = [] ++ .openScope :: [] := by
    change .openScope :: state.stack = _
    rw [alone]
    rfl
  have calm : (state.goto (.exec (.block loop.body))).step.Calm Site.body.sealed :=
    .within grown rfl (by simp)
  have stays : ¬ (state.goto (.exec (.block loop.body))).step.Leaves .continued := by
    unfold State.Leaves
    rw [grown]
    rintro (⟨leaves, _⟩ | leaves)
    · exact contained leaves
    · exact leaves
  have next := begun.step (by rintro _ ⟨⟩) (by
    rintro - (declares | ⟨frame, top, _⟩)
    · cases declares
    · rw [isAlone] at top
      cases top)
  have related : Related loop start _ _ := .site .body next calm stays
  rw [← State.step_onFloor_of_working (fun completed => by cases completed.isResult),
    ← State.step_onFloor_of_working (fun completed => by cases completed.isResult),
    State.onFloor_of_alone isAlone, State.onFloor_of_alone otherAlone] at related
  exact of related rfl (.last _)

/-- The loops go on with the next step, or to the next turn. -/
theorem stepping
    {rest : List Expr}
    (inLoop : InLoop start (some start.loopParting) numbers state other)
    (alone : state.stack = []) :
    Onward loop start
      (state.placed (.steps loop.own rest) [.openScope])
      (other.placed (.statements (rest.map .expr)) loop.aroundTurn) := by
  cases rest with
  | nil =>
      obtain ⟨whole, joined⟩ := (inLoop.goto (.flow .normal) rfl).join alone rfl
      have turns : Related loop start _ _ := .point .turning joined alone
      let closed := other.withScopes other.scopes.pop
      have completes := other.slips_no_statement .openScope
        [.loopBody loop.whileOwn, .blockRest [], .openScope]
      have leavesScope := other.slips_out_of_scope (.loopBody loop.whileOwn)
        [.blockRest [], .openScope] .normal
      have noSteps :
          (closed.placed (.flow .normal) [.loopBody loop.whileOwn, .blockRest [], .openScope]).Slips
            (closed.placed (.steps loop.whileOwn []) [.blockRest [], .openScope]) :=
        ⟨rfl, rfl, rfl, rfl, rfl⟩
      exact of turns rfl (.slip completes (.slip leavesScope (.slip noSteps (.last _))))
  | cons expr rest =>
      have steps : Related loop start _ _ :=
        .at (.stepped rest) (inLoop.goto (.eval expr) rfl) alone rfl nofun
      have executes := other.slips_statement loop.aroundTurn (.expr expr) (rest.map .expr)
      exact of steps rfl (.slip executes (.last _))

/-- The `for` loop opens its scope, and the `while` form enters its block. -/
theorem begin
    (numbered : start.Numbered)
    (alone : start.stack = []) :
    Onward loop start (start.goto (.exec loop.stmt)) (start.goto (.exec loop.asWhile)) := by
  have isPlaced (stmt : Stmt) : start.goto (.exec stmt) = start.placed (.exec stmt) [] :=
    ((start.goto (.exec stmt)).placed_of_alone alone).symm
  rw [isPlaced, isPlaced]
  obtain ⟨init, test, steps, body, line⟩ := loop
  let loop : ForStatement := ⟨init, test, steps, body, line⟩
  cases init with
  | nothing =>
      obtain ⟨numbers, inLoop⟩ := InLoop.begin numbered alone (.turn loop.own) rfl
      have turns : Related loop start _ _ := .point .turning inLoop alone
      have executes := start.entered.slips_statement [.openScope] loop.whileStmt []
      exact of turns rfl
        (glides_block (hoist_first loop) start [] (.slip executes (.last _)))
  | declare line declarators =>
      obtain ⟨numbers, inLoop⟩ := InLoop.begin numbered alone (.declare declarators) rfl
      have starts : Related loop start _ _ := .at .started inLoop alone rfl nofun
      have executes := start.entered.slips_statement [.openScope] (.declare line declarators)
        [loop.whileStmt]
      exact of starts rfl
        (glides_block (hoist_first loop) start [] (.slip executes (.last _)))
  | expr expr =>
      obtain ⟨numbers, inLoop⟩ := InLoop.begin numbered alone (.eval expr) rfl
      let opened := ((start.withScopes start.scopes.push).goto (.eval expr)).push .discarded
      let otherOpened := (start.entered.goto (.eval expr)).push .discarded
      have pushed : InLoop start none numbers opened otherOpened := inLoop.push rfl rfl rfl
      have grown : opened.stack = [.discarded] := congrArg (Frame.discarded :: ·) alone
      have otherGrown : otherOpened.stack = [.discarded] := congrArg (Frame.discarded :: ·) alone
      have calm : opened.Calm Site.started.sealed := by
        refine .calm rfl ?_
        rw [grown]
        exact List.forall_mem_singleton.mpr rfl
      have stays : ¬ opened.Leaves .continued := by
        unfold State.Leaves
        rw [grown]
        rintro (⟨leaves, _⟩ | leaves)
        · exact leaves
        · exact leaves
      have starts : Related loop start _ _ := .site .started pushed calm stays
      unfold State.onFloor at starts
      rw [grown, otherGrown] at starts
      have executes := start.entered.slips_statement [.openScope] (.expr expr) [loop.whileStmt]
      exact of starts rfl
        (glides_block (hoist_first loop) start [] (.slip executes (.last _)))

/-- The `while` loop glides on whenever the `for` loop makes a step. -/
theorem of_related
    (numbered : start.Numbered)
    (begun : start.stack = [])
    (contained : ¬ Stmt.BodyLeaves .continued loop.body)
    (pair : Related loop start state other)
    (busy : ¬ state.IsCompleted []) :
    Onward loop start state other := by
  cases pair with
  | begin => exact begin numbered begun
  | @site site numbers state other inLoop calm stays =>
      by_cases completed : state.IsCompleted []
      · obtain ⟨alone, isResult⟩ := completed
        have staysHere : ¬ state.control.Leaves .continued := by
          unfold State.Leaves at stays
          rwa [alone] at stays
        rw [State.onFloor_of_alone alone, State.onFloor_of_alone (inLoop.alone alone),
          inLoop.follows.control]
        cases site with
        | started => exact started inLoop alone isResult staysHere
        | tested => exact tested inLoop alone isResult staysHere
        | body => exact body inLoop alone isResult staysHere
        | stepped rest => exact stepped inLoop alone isResult
        | ending => exact ending inLoop alone isResult
      · exact working inLoop calm stays completed
  | point point inLoop alone =>
      cases point with
      | turning => exact turning inLoop alone
      | entering => exact entering contained inLoop alone
      | stepping rest => exact stepping inLoop alone
  | done known completed closed => exact (busy completed).elim

end Onward

/-- There is always something that waits in the `for` loop. -/
theorem Site.frames_ne_nil (site : Site) : site.frames loop ≠ [] := by
  cases site <;> exact List.cons_ne_nil _ _

/-- There is always something that waits in the `while` loop. -/
theorem Site.otherFrames_ne_nil (site : Site) : site.otherFrames loop ≠ [] := by
  cases site <;> exact List.cons_ne_nil _ _

/-- Two executions that work have what they do in common. -/
theorem State.Matches.of_working
    {floor : List Frame}
    (known : numbers.Fixes start.scopes.next start.nextBirth)
    (world : other.world = state.world.renumbered numbers)
    (suspended : other.control = .suspended ↔ state.control = .suspended)
    (working : ¬ state.IsCompleted floor)
    (otherWorking : ¬ other.IsCompleted floor) :
    start.Matches floor numbers state other :=
  ⟨known, world, suspended, iff_of_false otherWorking working,
    fun completed => (working completed).elim⟩

/-- Two executions have the same in common above any frames. -/
theorem State.Matches.onFloor
    (isLike : start.Matches [] numbers state other)
    (floor : List Frame) :
    (start.onFloor floor).Matches floor numbers (state.onFloor floor) (other.onFloor floor) where
  known := isLike.known
  world := isLike.world
  suspended := isLike.suspended
  completed :=
    State.isCompleted_onFloor.trans (isLike.completed.trans State.isCompleted_onFloor.symm)
  ending completed := by
    obtain ⟨same, closed⟩ := isLike.ending (State.isCompleted_onFloor.mp completed)
    rw [same]
    exact ⟨rfl, closed⟩

/-- What is as far in both loops has in common what the loops have. -/
theorem Related.matches
    (pair : Related loop start state other) :
    ∃ numbers, start.Matches [] numbers state other := by
  cases pair with
  | begin =>
      refine ⟨.same, .of_working ⟨fun _ _ => rfl, fun _ _ => rfl⟩ ?_ ?_ ?_ ?_⟩
      · exact (World.renumbered_same _).symm
      · exact iff_of_false nofun nofun
      · exact fun completed => by cases completed.isResult
      · exact fun completed => by cases completed.isResult
  | @site site numbers state other inLoop calm stays =>
      refine ⟨numbers, .of_working inLoop.numbering.fixes inLoop.follows.world ?_ ?_ ?_⟩
      · change other.control = .suspended ↔ state.control = .suspended
        rw [inLoop.follows.control, Control.suspended_renumbered]
      · exact fun completed => site.frames_ne_nil (List.append_eq_nil_iff.mp completed.stack).2
      · exact fun completed => site.otherFrames_ne_nil (List.append_eq_nil_iff.mp completed.stack).2
  | @point point numbers state other inLoop alone =>
      refine ⟨numbers, .of_working inLoop.numbering.fixes inLoop.follows.world ?_ ?_ ?_⟩
      · exact iff_of_false (by cases point <;> nofun) (by cases point <;> nofun)
      · exact fun completed => by cases point <;> cases completed.isResult
      · exact fun completed => by cases point <;> cases completed.isResult
  | @done numbers state known completed closed =>
      refine ⟨numbers, known, rfl, Control.suspended_renumbered _, ?_, fun _ => ⟨?_, closed⟩⟩
      · refine iff_of_true ⟨?_, ?_⟩ completed
        · exact List.map_eq_nil_iff.mpr completed.stack
        · exact (Control.isResult_renumbered _).trans completed.isResult
      · unfold State.renumbered
        rw [completed.stack]
        rfl

/-- Both loops are woken in the same way. -/
theorem Related.wake
    (pair : Related loop start state other)
    (resting : state.control = .suspended)
    (host : Host) :
    Related loop start (state.wake host) (other.wake host) := by
  cases pair with
  | begin => cases resting
  | @site site numbers state other inLoop calm stays =>
      have isResting : state.control = .suspended := resting
      refine .site site (inLoop.wake host) (calm.wake host) ?_
      unfold State.Leaves at stays
      rwa [isResting] at stays
  | point point inLoop alone => cases point <;> cases resting
  | done known completed closed =>
      have isResult := completed.isResult
      rw [resting] at isResult
      cases isResult

/-- The `for` loop paces its `while` form. -/
theorem paces
    (numbered : start.Numbered)
    (alone : start.stack = [])
    (contained : ¬ Stmt.BodyLeaves .continued loop.body) :
    Paces (Related loop start) fun last other =>
      ∃ numbers, start.Matches [] numbers last other where
  always pair := pair.matches
  meanwhile pair working awake busy world := by
    obtain ⟨numbers, isLike⟩ := pair.matches
    exact ⟨numbers, .of_working isLike.known (world.trans isLike.world)
      (iff_of_false busy.awake awake) working fun completed => busy.stack completed.stack⟩
  completed pair := pair.matches.choose_spec.completed
  suspended pair := pair.matches.choose_spec.suspended
  step pair working := Onward.of_related numbered alone contained pair working
  wake pair resting host := pair.wake resting host

/-- From every state in which all numbers were given before, the two forms come to the same. -/
theorem matches_of_numbered
    (loop : ForStatement)
    (numbered : start.Numbered)
    (contained : ¬ Stmt.BodyLeaves .continued loop.body)
    (hosts : List Host) :
    (∀ last,
        Comes start.stack (start.goto (.exec loop.stmt)) hosts last →
        ∃ other numbers,
          Comes start.stack (start.goto (.exec loop.asWhile)) hosts other ∧
            start.Matches start.stack numbers last other) ∧
      ∀ other,
        Comes start.stack (start.goto (.exec loop.asWhile)) hosts other →
        ∃ last numbers,
          Comes start.stack (start.goto (.exec loop.stmt)) hosts last ∧
            start.Matches start.stack numbers last other := by
  let base : State := { start with stack := [] }
  have isNumbered : base.Numbered :=
    ⟨⟨⟨by simp [base], numbered.values.stores.scopes, numbered.values.stores.world⟩,
      numbered.values.control⟩, numbered.scopes⟩
  have pacing := paces isNumbered rfl contained
  have above (stmt : Stmt) :
      start.goto (.exec stmt) = (base.goto (.exec stmt)).onFloor start.stack :=
    rfl
  rw [above, above]
  constructor
  · intro last comes
    obtain ⟨inner, rfl, innerComes⟩ := comes.of_onFloor
    obtain ⟨other, otherComes, numbers, isLike⟩ := pacing.forth .begin innerComes
    exact ⟨_, numbers, otherComes.onFloor start.stack, isLike.onFloor start.stack⟩
  · intro other comes
    obtain ⟨inner, rfl, innerComes⟩ := comes.of_onFloor
    obtain ⟨last, lastComes, numbers, isLike⟩ := pacing.back (.here .begin) innerComes
    exact ⟨_, numbers, lastComes.onFloor start.stack, isLike.onFloor start.stack⟩

end Steps

namespace State.Matches

variable {start last other : State} {floor : List Frame} {numbers : Renumbering}

/-- Afterwards a name means the same in every scope that was numbered before. -/
theorem getFrom?
    {id : Nat}
    (isLike : start.Matches floor numbers last other)
    (completed : last.IsCompleted floor)
    (before : id < start.scopes.next)
    (name : String) :
    other.scopes.getFrom? id name =
      (last.scopes.getFrom? id name).map (Value.renumbered numbers) := by
  obtain ⟨rfl, _⟩ := isLike.ending completed
  have whole : Scopes.Follows numbers none last.scopes (last.scopes.renumbered numbers) := .whole _
  have found := whole.getFrom? id name
  rwa [isLike.known.scope id before] at found

/-- All the time, arrays have the same items. -/
theorem item
    (isLike : start.Matches floor numbers last other)
    (id position : Nat) :
    other.world.heap.get? id position =
      (last.world.heap.get? id position).map (Value.renumbered numbers) := by
  rw [isLike.world]
  exact Heap.get?_renumbered id position

end State.Matches

/--
A `for` loop whose body contains no `continue` of its own agrees with the block of its first
clause and of the `while` loop of its test, its body and its steps.  In every state that a
run comes to, and with any hosts that wake the run later: whatever an execution of one of the
two comes to, the other one comes to, but for the numbers of scopes and declaration events.
-/
theorem for_agrees_with_while
    (loop : ForStatement)
    {config : Config}
    {program : Program}
    {host : Host}
    {past : List State}
    {start : State}
    (reached : Trace (.begin config program host) past start)
    (contained : ¬ Stmt.BodyLeaves .continued loop.body)
    (hosts : List Host) :
    (∀ last,
        Comes start.stack (start.goto (.exec loop.stmt)) hosts last →
        ∃ other numbers,
          Comes start.stack (start.goto (.exec loop.asWhile)) hosts other ∧
            start.Matches start.stack numbers last other) ∧
      ∀ other,
        Comes start.stack (start.goto (.exec loop.asWhile)) hosts other →
        ∃ last numbers,
          Comes start.stack (start.goto (.exec loop.stmt)) hosts last ∧
            start.Matches start.stack numbers last other :=
  matches_of_numbered loop (reached.numbered (.begin config program host)).2 contained hosts

/-- Nothing was left and nothing failed. -/
def Control.isNormal : Control → Bool
  | .flow .normal => true
  | _ => false

/-- Only a statement that is completed normally leaves and fails nothing. -/
theorem Control.isNormal_iff {control : Control} :
    control.isNormal = true ↔ control = .flow .normal := by
  constructor
  · intro holds
    unfold isNormal at holds
    split at holds
    · rfl
    · cases holds
  · rintro rfl
    rfl

/-- A loop with a variable of its own makes a turn and is completed. -/
theorem for_agrees_with_while_in_one_turn :
    ∃ (loop : ForStatement) (start last other : State) (numbers : Renumbering),
      loop.stmt =
          .forLoop (.declare 1 [⟨"i", some (.int 1 0)⟩])
            (some (.binary 1 .less (.name 1 "i") (.int 1 1)))
            [.update 1 .increment .after (.name 1 "i")]
            (.block [.expr (.int 1 7)]) ∧
        Comes start.stack (start.goto (.exec loop.stmt)) [] last ∧
          last.control = .flow .normal ∧
            Comes start.stack (start.goto (.exec loop.asWhile)) [] other ∧
              start.Matches start.stack numbers last other := by
  let loop : ForStatement :=
    { init := .declare 1 [⟨"i", some (.int 1 0)⟩]
      test := some (.binary 1 .less (.name 1 "i") (.int 1 1))
      steps := [.update 1 .increment .after (.name 1 "i")]
      body := [.expr (.int 1 7)]
      line := 1 }
  let start := State.begin ⟨1, none, .grb, 1000⟩ ⟨[]⟩ ⟨true, .empty, #[], #[]⟩
  let begun := start.goto (.exec loop.stmt)
  have alone
      {around : Enclosure}
      {part : Stmt}
      (standing : Stands [.expr (.int 1 7)] around part) :
      part = .expr (.int 1 7) := by
    induction standing with
    | top isPart => exact List.mem_singleton.mp isPart
    | _ => contradiction
  have contained : ¬ Stmt.BodyLeaves .continued loop.body := by
    rintro ⟨stmt, member, around, part, standing, isSource, _⟩
    cases List.mem_singleton.mp member
    rw [alone standing] at isSource
    cases isSource
  have busy :
      ((State.visited 37 begun).all fun state =>
        state.stack.length != 1 || !state.control.isResult) = true := by
    decide +kernel
  have isNormal : (begun.advance 37).control.isNormal = true := by
    decide +kernel
  generalize final : begun.advance 37 = last at isNormal
  have normal : last.control = .flow .normal := Control.isNormal_iff.mp isNormal
  have comes : Comes start.stack begun [] last := by
    rw [← final]
    refine .of_advance fun state member completed => ?_
    have holds := List.all_eq_true.mp busy state member
    rw [completed.stack, completed.isResult] at holds
    exact Bool.false_ne_true holds
  have agrees :=
    for_agrees_with_while loop (.nil (.begin ⟨1, none, .grb, 1000⟩ ⟨[]⟩ ⟨true, .empty, #[], #[]⟩))
      contained []
  obtain ⟨other, numbers, otherComes, isLike⟩ := agrees.1 last comes
  exact ⟨loop, start, last, other, numbers, rfl, comes, normal, otherComes, isLike⟩

end LedSketch.Machine
