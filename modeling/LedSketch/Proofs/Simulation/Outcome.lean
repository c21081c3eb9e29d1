import LedSketch.Proofs.Simulation.Chronicle

namespace LedSketch

/-!
# Outcomes of runs

A run that has ended has either found that its sketch is no program, or its steps have led
it to a state that is halted with the outcome.
-/

open Machine (State Trace)

/-- A sketch that cannot be parsed ends its run before the first step. -/
def Outcome.IsParseFailure
    (source : String)
    (outcome : Outcome) :
    Prop :=
  ∃ error,
    Script.parse (Sketch.loweredBy source.toList (Sketch.lowerings source.toList)).text =
        .error error ∧
      outcome = .failed (.evaluation error)

namespace Run

variable {config : Config} {run : Run} {host : Host}

/-- A poll without a step that ends a run has found that its sketch is no program. -/
theorem ended_of_no_resume
    {outcome : Outcome}
    (none : run.resume? config host = none)
    (ended : (run.poll config host).2.1.phase = .ended outcome) :
    run.phase = .ended outcome ∨
      ∃ source, run.phase = .fresh source ∧ outcome.IsParseFailure source := by
  cases run.poll_cases config host with
  | begins _ _ _ resumed | wakes _ resumed => cases none.symm.trans resumed
  | isNoProgram log fresh failed notResumed polled =>
      rw [polled] at ended
      cases ended
      exact .inr ⟨_, fresh, _, failed, rfl⟩
  | hasEnded _ _ polled | isLost _ _ polled =>
      rw [polled] at ended
      exact .inl ended

theorem settle_ready
    {state : State}
    {outcome : Outcome}
    (ready : (run.settle state).1 = .ready outcome) :
    (run.settle state).2.1.phase = .ended outcome := by
  unfold settle at *
  dsimp only at *
  cases result : state.pollResult <;> rw [result] at ready <;> cases ready
  rfl

/-- A poll that answers with an outcome leaves the run ended with it. -/
theorem ended_of_ready
    {outcome : Outcome}
    (ready : (run.poll config host).1 = .ready outcome) :
    (run.poll config host).2.1.phase = .ended outcome := by
  cases run.poll_cases config host with
  | begins _ _ _ _ polled | wakes _ _ polled =>
      rw [polled] at ready ⊢
      exact settle_ready ready
  | isNoProgram _ _ _ _ polled =>
      rw [polled] at ready ⊢
      cases ready
      rfl
  | hasEnded ended _ polled =>
      rw [polled] at ready ⊢
      cases ready
      exact ended
  | isLost _ _ polled =>
      rw [polled] at ready
      cases ready

theorem visited_ne_nil
    {state : State}
    (resumed : run.resume? config host = some state) :
    run.visited config host ≠ [] := by
  rw [visited, resumed]
  dsimp only
  rw [(State.visited_of_running (running_of_resume resumed) _).1]
  exact List.cons_ne_nil _ _

end Run

namespace Chronicle

variable {config : Config} {source : String} {chronicle : Chronicle}

theorem parseFailure_follow
    {outcome : Outcome}
    (course : Course config source chronicle.run.phase chronicle.states)
    (earlier :
      ∀ outcome,
        chronicle.states = [] →
        chronicle.run.phase = .ended outcome →
        outcome.IsParseFailure source)
    (hosts : List Host)
    (noStates : (chronicle.follow config hosts).states = [])
    (ended : (chronicle.follow config hosts).run.phase = .ended outcome) :
    outcome.IsParseFailure source := by
  induction hosts generalizing chronicle with
  | nil => exact earlier outcome noStates ended
  | cons host later inductionHypothesis =>
      refine inductionHypothesis (course.poll host) ?_ noStates ended
      intro outcome unmoved endedHere
      obtain ⟨before, visited⟩ := List.append_eq_nil_iff.mp unmoved
      cases resumed : chronicle.run.resume? config host with
      | some state => exact (Run.visited_ne_nil resumed visited).elim
      | none =>
          obtain endedBefore | ⟨other, fresh, isParseFailure⟩ :=
            Run.ended_of_no_resume resumed endedHere
          · exact earlier outcome before endedBefore
          · rw [fresh] at course
            obtain ⟨_, rfl⟩ := course.of_fresh
            exact isParseFailure

/-- A run that has ended was led to its outcome by its steps, if it made any. -/
theorem trace_of_ended
    {generation : UInt64}
    {hosts : List Host}
    {outcome : Outcome}
    (ended : ((start generation source).follow config hosts).run.phase = .ended outcome) :
    outcome.IsParseFailure source ∨
      ∃ program host last,
        Run.program? source = some program ∧
          Trace (.begin config program host)
              ((start generation source).follow config hosts).states last ∧
            last.control = .halted outcome := by
  have course := course config generation source hosts
  generalize same : (start generation source).follow config hosts = chronicle at course ended ⊢
  cases isPhase : chronicle.run.phase with
  | ended other =>
      cases isPhase.symm.trans ended
      rw [isPhase] at course
      generalize isStates : chronicle.states = states at course
      cases course with
      | unmoved =>
          rw [← same] at ended isStates
          exact .inl
            (parseFailure_follow (Chronicle.course config generation source [])
              (fun _ _ => Phase.noConfusion) hosts isStates ended)
      | moved parsed trace begun rests ends =>
          exact .inr ⟨_, _, _, parsed, trace, ends _ rfl⟩
  | _ => cases isPhase.symm.trans ended

/-- A lasting property that the program begins with holds where its run has ended. -/
theorem ended_lasting
    {generation : UInt64}
    {hosts : List Host}
    {outcome : Outcome}
    {holds : List State → State → Prop}
    (ended : ((start generation source).follow config hosts).run.phase = .ended outcome)
    (lasting : Machine.Lasting holds)
    (initially :
      ∀ program host,
        Run.program? source = some program →
        holds [] (.begin config program host)) :
    outcome.IsParseFailure source ∨
      ∃ last,
        last.control = .halted outcome ∧
          holds ((start generation source).follow config hosts).states last := by
  obtain isParseFailure | ⟨program, host, last, parsed, trace, halted⟩ := trace_of_ended ended
  · exact .inl isParseFailure
  · exact .inr ⟨last, halted, trace.lasting lasting (initially program host parsed)⟩

end Chronicle

end LedSketch
