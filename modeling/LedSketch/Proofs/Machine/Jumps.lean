import LedSketch.Proofs.Machine.Causes
import LedSketch.Proofs.Machine.Origin
import LedSketch.Proofs.Machine.Seats
import LedSketch.Proofs.Machine.Stale

namespace LedSketch.Machine

/-!
# Jumps

A jump passes the frames of the body that it is made in until a loop or a switch takes it.
A jump that none of them takes gets to the end of the body: it leaves a function like any
other completion, but fails on the top level of the program.
-/

open Script

/-- Whether a loop or a switch around a statement takes its jump. -/
def catches (around : Enclosure) : Flow → Bool
  | .broke => around.inLoop || around.inSwitch
  | .continued => around.inLoop
  | _ => false

/-- Code of an owner executes a statement, and these frames wait for the end of its body. -/
structure State.Reaches
    (script : List Stmt)
    (owner : Owner)
    (base : List Frame)
    (stmt : Stmt)
    (state : State) :
    Prop where
  executes : state.control = .exec stmt
  stands : Stands (owner.body script) (enclosureOf state.stack) stmt
  stack : ∃ inner, state.stack = inner ++ base ∧ ∀ frame ∈ inner, frame.isInner = true

variable {script : List Stmt} {owner : Owner} {state : State} {flow : Flow}
variable {frame : Frame} {rest : List Frame}

theorem isJump_of_jump?
    {stmt : Stmt}
    (jump : jump? stmt = some flow) :
    flow = .broke ∨ flow = .continued := by
  cases stmt with
  | breaks => exact .inl (Option.some.inj jump).symm
  | continues => exact .inr (Option.some.inj jump).symm
  | _ => contradiction

namespace Frame

theorem isInner_of_lets (lets : frame.lets flow = true) : frame.isInner = true := by
  cases frame <;> first | rfl | contradiction

/-- Frames that hand a jump on are no loops, and a switch hands on what it does not take. -/
theorem catches_of_lets
    (lets : frame.lets flow = true)
    (rest : List Frame) :
    catches (enclosureOf (frame :: rest)) flow = catches (enclosureOf rest) flow := by
  cases frame with
  | blockRest | openScope | loopStart => rfl
  | caseRest cases =>
      cases flow with
      | continued => rfl
      | _ => contradiction
  | _ => contradiction

theorem lets_of_uncaught
    (isInner : frame.isInner = true)
    (takes : frame.takes = .completion)
    (jumping : flow = .broke ∨ flow = .continued)
    (uncaught : catches (enclosureOf (frame :: rest)) flow = false) :
    frame.lets flow = true := by
  cases frame with
  | blockRest | openScope | loopStart => rfl
  | loopBody loop => obtain rfl | rfl := jumping <;> contradiction
  | caseRest cases =>
      obtain rfl | rfl := jumping
      · change ((enclosureOf rest).inLoop || true) = false at uncaught
        rw [Bool.or_true] at uncaught
        contradiction
      · rfl
  | activation => contradiction
  | _ => contradiction

end Frame

theorem State.step_of_lets
    (jumping : flow = .broke ∨ flow = .continued)
    (completed : state.control = .flow flow)
    (top : state.stack = frame :: rest)
    (lets : frame.lets flow = true) :
    state.step.control = .flow flow ∧ state.step.stack = rest := by
  rw [State.step_of_flow completed top]
  cases frame with
  | blockRest | loopStart => obtain rfl | rfl := jumping <;> exact ⟨rfl, rfl⟩
  | openScope => exact ⟨rfl, rfl⟩
  | caseRest cases =>
      obtain rfl | rfl := jumping
      · contradiction
      · exact ⟨rfl, rfl⟩
  | _ => contradiction

/-- The frames that wait for the end of the body that an owner executes. -/
inductive Owner.Base (script : List Stmt) : Owner → List Frame → Prop where
  | script : Base script .script [.topLevel]
  | function
      {function : Function}
      (depth : Nat)
      (below : List Frame)
      (declared : Declared script function) :
      Base script (.function function) (.activation depth :: below)

theorem Sited.exists_base
    {kind : Kind}
    {stack : List Frame}
    (sited : Sited script kind owner stack)
    (hasCode : owner ≠ .host) :
    ∃ base inner,
      owner.Base script base ∧ stack = inner ++ base ∧ ∀ frame ∈ inner, frame.isInner = true := by
  induction sited with
  | bottom | outer => exact (hasCode rfl).elim
  | topLevel => exact ⟨[.topLevel], [], .script, rfl, by simp⟩
  | activation depth declared below =>
      exact ⟨_, [], .function depth _ declared, rfl, by simp⟩
  | @inner kind owner frame rest isInner takes stands below inductionHypothesis =>
      obtain ⟨base, inner, isBase, rfl, allInner⟩ := inductionHypothesis hasCode
      exact ⟨base, frame :: inner, isBase, rfl, List.forall_mem_cons.mpr ⟨isInner, allInner⟩⟩

/-- A jump that is not taken gets to the end of the body. -/
theorem Sited.jump_arrives
    {inner base : List Frame}
    (sited : Sited script .completion owner state.stack)
    (stack : state.stack = inner ++ base)
    (allInner : ∀ frame ∈ inner, frame.isInner = true)
    (jumping : flow = .broke ∨ flow = .continued)
    (completed : state.control = .flow flow)
    (uncaught : catches (enclosureOf state.stack) flow = false) :
    ∃ steps, (state.advance steps).control = .flow flow ∧ (state.advance steps).stack = base := by
  induction inner generalizing state with
  | nil => exact ⟨0, completed, stack⟩
  | cons frame inner inductionHypothesis =>
      obtain ⟨isInner, others⟩ := List.forall_mem_cons.mp allInner
      rw [List.cons_append] at stack
      rw [stack] at sited uncaught
      generalize inner ++ base = rest at *
      cases sited with
      | topLevel | activation => contradiction
      | inner _ takes stands below =>
          have lets := Frame.lets_of_uncaught isInner takes jumping uncaught
          have gives : frame.gives = .completion := by
            cases frame <;> first | rfl | contradiction
          obtain ⟨stillJumps, shorter⟩ := State.step_of_lets jumping completed stack lets
          rw [gives, ← shorter] at below
          rw [Frame.catches_of_lets lets, ← shorter] at uncaught
          obtain ⟨steps, arrived⟩ :=
            inductionHypothesis below shorter others stillJumps uncaught
          have running : state.paused = false := by rw [State.paused, completed]
          exact ⟨steps + 1, by rwa [State.advance_succ running]⟩

/-- The owner of the code above the top level is the script. -/
theorem Sited.owner_eq_script
    {kind : Kind}
    {inner : List Frame}
    (sited : Sited script kind owner (inner ++ [.topLevel]))
    (allInner : ∀ frame ∈ inner, frame.isInner = true) :
    owner = .script := by
  induction inner generalizing kind with
  | nil =>
      cases sited with
      | topLevel => rfl
      | outer | inner => contradiction
  | cons frame inner inductionHypothesis =>
      obtain ⟨first, others⟩ := List.forall_mem_cons.mp allInner
      generalize whole : frame :: inner ++ [Frame.topLevel] = stack at sited
      cases sited with
      | bottom => cases whole
      | topLevel => simp at whole
      | activation depth declared below =>
          cases (List.cons.inj whole).1
          contradiction
      | outer isOuter below =>
          cases (List.cons.inj whole).1
          cases frame <;> contradiction
      | inner isInner takes stands below =>
          obtain ⟨rfl, rfl⟩ := List.cons.inj whole
          exact inductionHypothesis below others

namespace State

/-- The end of a program body fails for a jump, and nothing stops the failure. -/
theorem halts_of_stray
    (completed : state.control = .flow flow)
    (jumping : flow = .broke ∨ flow = .continued)
    (alone : state.stack = [.topLevel]) :
    ∃ steps, (state.advance steps).control = .halted (.failed (.runtime 0 .strayBreak)) := by
  have running : state.paused = false := by rw [paused, completed]
  have raised : state.step.control = .raise (.runtime 0 .strayBreak) := by
    rw [step_of_flow completed alone]
    obtain rfl | rfl := jumping <;> rfl
  obtain ⟨halted, _⟩ := advance_of_raise raised 0
  refine ⟨0 + state.step.stack.length + 1 + 1, ?_⟩
  rw [advance_succ running]
  exact halted

/-- A jump out of its body ends a call like a body that is completed. -/
theorem returns_of_stray
    {depth : Nat}
    {below : List Frame}
    (completed : state.control = .flow flow)
    (jumping : flow = .broke ∨ flow = .continued)
    (top : state.stack = .activation depth :: below) :
    (state.advance 1).control = .value .undefined ∧ (state.advance 1).stack = below := by
  have running : state.paused = false := by rw [paused, completed]
  rw [advance_succ running, advance, step_of_flow completed top]
  obtain rfl | rfl := jumping <;> exact ⟨rfl, rfl⟩

/-- Code is executed in the script or in the body of a function. -/
theorem Placed.reaches
    {stmt : Stmt}
    (placed : state.Placed script)
    (executes : state.control = .exec stmt) :
    ∃ owner base,
      Sited script .completion owner state.stack ∧
        owner.Base script base ∧ state.Reaches script owner base stmt := by
  obtain ⟨kind, owner, sited, fits, stands⟩ := placed
  rw [executes] at fits stands
  cases fits .completion rfl
  have hasCode : owner ≠ .host := by
    rintro rfl
    exact Stands.body_ne_nil stands rfl
  obtain ⟨base, inner, isBase, whole, allInner⟩ := sited.exists_base hasCode
  exact ⟨owner, base, sited, isBase, executes, stands, inner, whole, allInner⟩

/-- A jump that no loop and no switch takes gets to the end of its body. -/
theorem Reaches.jump_arrives
    {base : List Frame}
    {stmt : Stmt}
    (reaches : state.Reaches script owner base stmt)
    (sited : Sited script .completion owner state.stack)
    (jump : jump? stmt = some flow)
    (uncaught : catches (enclosureOf state.stack) flow = false) :
    ∃ steps, (state.advance steps).control = .flow flow ∧ (state.advance steps).stack = base := by
  obtain ⟨inner, whole, allInner⟩ := reaches.stack
  have running : state.paused = false := by rw [paused, reaches.executes]
  have stepped : state.step = state.complete flow := by
    rw [step, reaches.executes]
    cases stmt with
    | breaks | continues =>
        cases jump
        rfl
    | _ => contradiction
  have jumped : state.step.control = .flow flow ∧ state.step.stack = state.stack := by
    rw [stepped]
    exact ⟨rfl, rfl⟩
  rw [← jumped.2] at sited whole uncaught
  obtain ⟨steps, arrived⟩ :=
    sited.jump_arrives whole allInner (isJump_of_jump? jump) jumped.1 uncaught
  exact ⟨steps + 1, by rwa [advance_succ running]⟩

/-- A jump that is not taken on the top level of the program makes the run fail. -/
theorem Reaches.fails
    {stmt : Stmt}
    (reaches : state.Reaches script .script [.topLevel] stmt)
    (sited : Sited script .completion .script state.stack)
    (jump : jump? stmt = some flow)
    (uncaught : catches (enclosureOf state.stack) flow = false) :
    ∃ steps, (state.advance steps).control = .halted (.failed (.runtime 0 .strayBreak)) := by
  obtain ⟨steps, completed, alone⟩ := reaches.jump_arrives sited jump uncaught
  obtain ⟨more, halted⟩ := halts_of_stray completed (isJump_of_jump? jump) alone
  exact ⟨steps + more, by rwa [advance_add]⟩

/-- A jump that is not taken in a function ends the call, which has no value. -/
theorem Reaches.returns
    {depth : Nat}
    {below : List Frame}
    {stmt : Stmt}
    (reaches : state.Reaches script owner (.activation depth :: below) stmt)
    (sited : Sited script .completion owner state.stack)
    (jump : jump? stmt = some flow)
    (uncaught : catches (enclosureOf state.stack) flow = false) :
    ∃ steps, (state.advance steps).control = .value .undefined ∧
      (state.advance steps).stack = below := by
  obtain ⟨steps, completed, top⟩ := reaches.jump_arrives sited jump uncaught
  have returned := returns_of_stray completed (isJump_of_jump? jump) top
  exact ⟨steps + 1, by rwa [advance_add]⟩

end State

/-- A run in which jumps and their failures come from statements that it has executed. -/
structure Jumping
    (script : List Stmt)
    (past : List State)
    (state : State) :
    Prop where
  runs : state.Runs script
  source :
    ∀ flow,
      flow = .broke ∨ flow = .continued →
      state.control = .flow flow →
      ∃ before source after stmt inner,
        past = before ++ source :: after ∧
          source.Placed script ∧
            source.control = .exec stmt ∧
              jump? stmt = some flow ∧
                source.stack = inner ++ state.stack ∧
                  (∀ frame ∈ inner, frame.isInner = true) ∧
                    catches (enclosureOf source.stack) flow =
                      catches (enclosureOf state.stack) flow
  stray :
    ∀ line,
      state.control.failure? = some (.runtime line .strayBreak) →
      ∃ before source after stmt flow,
        past = before ++ source :: after ∧
          source.Reaches script .script [.topLevel] stmt ∧
            jump? stmt = some flow ∧
              catches (enclosureOf source.stack) flow = false

namespace Jumping

variable {past : List State}

/-- A jump that a step makes or hands on comes from a statement that was executed. -/
theorem source_step
    (jumps : Jumping script past state)
    (jumping : flow = .broke ∨ flow = .continued)
    (completed : state.step.control = .flow flow) :
    ∃ before source after stmt inner,
      past ++ [state] = before ++ source :: after ∧
        source.Placed script ∧
          source.control = .exec stmt ∧
            jump? stmt = some flow ∧
              source.stack = inner ++ state.step.stack ∧
                (∀ frame ∈ inner, frame.isInner = true) ∧
                  catches (enclosureOf source.stack) flow =
                    catches (enclosureOf state.step.stack) flow := by
  have cause := state.cause_step
  rw [completed] at cause
  generalize isFlow : Control.flow flow = control at cause
  cases cause with
  | ordinary isOrdinary =>
      rw [← isFlow] at isOrdinary
      obtain rfl | rfl := jumping <;> contradiction
  | @jumps stmt _ executes jump =>
      cases isFlow
      have placed := jumps.runs.placed (by rw [executes]; exact fun _ => Control.noConfusion)
      have sameStack : state.step.stack = state.stack := by
        rw [State.step, executes]
        cases stmt with
        | breaks | continues => rfl
        | _ => contradiction
      exact ⟨past, state, [], stmt, [], rfl, placed, executes, jump, sameStack.symm, by simp,
        by rw [sameStack]⟩
  | @jumpsOn _ frame rest earlier top lets =>
      cases isFlow
      obtain ⟨before, source, after, stmt, inner, rfl, placed, executes, jump, whole, allInner,
        same⟩ := jumps.source flow jumping earlier
      obtain ⟨_, shorter⟩ := State.step_of_lets jumping earlier top lets
      refine ⟨before, source, after ++ [state], stmt, inner ++ [frame], by simp, placed, executes,
        jump, ?_, ?_, ?_⟩
      · rw [shorter, whole, top]
        simp
      · exact List.forall_mem_append.mpr
          ⟨allInner, List.forall_mem_singleton.mpr (Frame.isInner_of_lets lets)⟩
      · rw [same, shorter, top, Frame.catches_of_lets lets]
  | _ => cases isFlow

/-- A jump that reaches the end of the program was made in its top-level code, untaken. -/
theorem stray_of_topLevel
    {rest : List Frame}
    (jumps : Jumping script past state)
    (jumping : flow = .broke ∨ flow = .continued)
    (completed : state.control = .flow flow)
    (top : state.stack = .topLevel :: rest) :
    ∃ before source after stmt,
      past = before ++ source :: after ∧
        source.Reaches script .script [.topLevel] stmt ∧
          jump? stmt = some flow ∧ catches (enclosureOf source.stack) flow = false := by
  have here := jumps.runs.placed (by rw [completed]; exact fun _ => Control.noConfusion)
  obtain ⟨kind, owner, sited, fits, stands⟩ := here
  rw [top] at sited
  have alone : rest = [] := by
    cases sited with
    | topLevel => rfl
    | outer | inner => contradiction
  obtain ⟨before, source, after, stmt, inner, isPast, placed, executes, jump, whole, allInner,
    same⟩ := jumps.source flow jumping completed
  rw [top, alone] at whole same
  obtain ⟨kind, owner, sited, fits, stands⟩ := placed
  rw [whole] at sited
  cases sited.owner_eq_script allInner
  rw [executes] at stands
  refine ⟨before, source, after, stmt, isPast, ⟨executes, stands, inner, whole, allInner⟩, jump,
    ?_⟩
  rw [same]
  obtain rfl | rfl := jumping <;> rfl

theorem step (jumps : Jumping script past state) :
    Jumping script (past ++ [state]) state.step := by
  refine ⟨jumps.runs.step, fun flow jumping completed => jumps.source_step jumping completed, ?_⟩
  intro line fails
  obtain earlier | cause := state.failure_step fails
  · obtain ⟨before, source, after, stmt, flow, rfl, found⟩ := jumps.stray line earlier
    exact ⟨before, source, after ++ [state], stmt, flow, by simp, found⟩
  · generalize isRaised : Control.raise _ = control at cause
    cases cause with
    | ordinary isOrdinary =>
        rw [← isRaised] at isOrdinary
        contradiction
    | passes raised =>
        cases isRaised
        obtain ⟨before, source, after, stmt, flow, rfl, found⟩ :=
          jumps.stray line (by rw [raised]; rfl)
        exact ⟨before, source, after ++ [state], stmt, flow, by simp, found⟩
    | @strayBreak flow rest completed jumping top =>
        obtain ⟨before, source, after, stmt, rfl, found⟩ :=
          jumps.stray_of_topLevel jumping completed top
        exact ⟨before, source, after ++ [state], stmt, flow, by simp, found⟩
    | _ => cases isRaised

/-- A run at rest does not jump. -/
theorem of_rest
    {next : State}
    (runs : next.Runs script)
    (completes : ∀ flow, next.control ≠ .flow flow)
    (lives : next.control.failure? = none) :
    Jumping script past next := by
  refine ⟨runs, ?_, ?_⟩
  · intro flow jumping completed
    exact (completes flow completed).elim
  · intro line fails
    rw [lives] at fails
    contradiction

end Jumping

end LedSketch.Machine
