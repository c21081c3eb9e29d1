import LedSketch.Proofs.Simulation.Watch

namespace LedSketch

/-!
# Chronicles

A chronicle follows one run from its start through its polls.  What the host has become
at each poll is left open: presses may have been made, other runs polled, or newer ones
started in the meantime.  A property that every step and every poll keeps holds at every
moment of the run.
-/

open Machine (State Trace)

/-- The program that a sketch is converted to, if it can be parsed. -/
def Run.program? (source : String) : Option Script.Program :=
  let sketch := source.toList
  (Script.parse (Sketch.loweredBy sketch (Sketch.lowerings sketch)).text).toOption

/-- A run with what it has been seen to do. -/
structure Chronicle where
  run : Run
  /-- The states in which the run has made its steps. -/
  states : List State
  /-- The events that the run has told its hosts. -/
  told : List Event

namespace Chronicle

/-- A run that has not been polled. -/
def start
    (generation : UInt64)
    (source : String) :
    Chronicle :=
  ⟨⟨generation, .fresh source⟩, [], []⟩

/-- Follow a run through a poll. -/
def poll
    (config : Config)
    (chronicle : Chronicle)
    (host : Host) :
    Chronicle :=
  let (_, run, after) := chronicle.run.poll config host
  { run
    states := chronicle.states ++ chronicle.run.visited config host
    told := chronicle.told ++ after.events.toList.drop host.events.size }

/-- Follow a run through several polls. -/
def follow
    (config : Config)
    (chronicle : Chronicle) :
    List Host → Chronicle
  | [] => chronicle
  | host :: later => (chronicle.poll config host).follow config later

/--
A moment of a run, with the states that the run has left behind: before one of its steps,
or at rest between two polls.
-/
inductive Moment (chronicle : Chronicle) : List State → State → Prop where
  | running
      {past later : List State}
      {state : State}
      (whole : chronicle.states = past ++ state :: later) :
      Moment chronicle past state
  | resting
      {state : State}
      (rests : chronicle.run.phase = .suspended state) :
      Moment chronicle chronicle.states state

end Chronicle

/-- The last of some steps is an earlier step itself or one of the steps after it. -/
theorem Machine.split_last
    {past before between : List State}
    {state earlier : State}
    (whole : past ++ [state] = before ++ earlier :: between) :
    (past = before ∧ state = earlier ∧ between = []) ∨
      ∃ others, past = before ++ earlier :: others ∧ between = others ++ [state] := by
  obtain rfl | ⟨others, last, rfl⟩ := List.eq_nil_or_concat between
  · obtain ⟨samePast, sameLast⟩ := List.append_inj' whole rfl
    exact .inl ⟨samePast, (List.cons.inj sameLast).1, rfl⟩
  · rw [List.concat_eq_append, ← List.cons_append, ← List.append_assoc] at whole
    obtain ⟨samePast, sameLast⟩ := List.append_inj' whole rfl
    obtain ⟨rfl, _⟩ := List.cons.inj sameLast
    exact .inr ⟨others, samePast, List.concat_eq_append⟩

/-- A property of a state and of the states before it that every step and every poll keeps. -/
structure Machine.Lasting (holds : List State → State → Prop) : Prop where
  step :
    ∀ {past : List State} {state : State},
      holds past state →
      holds (past ++ [state]) state.step
  attach :
    ∀ {past : List State} {state : State} (host : Host),
      state.control = .suspended →
      holds past state →
      holds past (state.attach host)
  wake :
    ∀ {past : List State} {state : State} (host : Host),
      state.control = .suspended →
      holds past state →
      holds past (state.wake host)

theorem Machine.Trace.lasting
    {holds : List State → State → Prop}
    {initial final : State}
    {past states : List State}
    (trace : Trace initial states final)
    (lasting : Machine.Lasting holds)
    (initially : holds past initial) :
    holds (past ++ states) final := by
  induction trace generalizing past with
  | nil state =>
      rw [List.append_nil]
      exact initially
  | step onward inductionHypothesis =>
      rw [List.append_cons]
      exact inductionHypothesis (lasting.step initially)
  | wake host resting onward inductionHypothesis =>
      exact inductionHypothesis (lasting.wake host resting initially)

/-- How the phase of a run fits its sketch and the states in which it has made its steps. -/
inductive Course (config : Config) (source : String) : Phase → List State → Prop where
  | unmoved
      {phase : Phase}
      (fresh : ∀ other, phase = .fresh other → other = source)
      (notResting : ∀ kept, phase ≠ .suspended kept)
      (notFinished : ∀ iterations, phase ≠ .ended (.finished iterations)) :
      Course config source phase []
  | moved
      {phase : Phase}
      {program : Script.Program}
      {host : Host}
      {last : State}
      {states : List State}
      (parsed : Run.program? source = some program)
      (trace : Trace (.begin config program host) states last)
      (begun : ∀ other, phase ≠ .fresh other)
      (rests :
        ∀ kept, phase = .suspended kept →
          last.control = .suspended ∧ kept = last.attach .detached)
      (ends : ∀ outcome, phase = .ended outcome → last.control = .halted outcome) :
      Course config source phase states

namespace Run

variable {config : Config} {run : Run} {host : Host} {state : State}

/-- A run that a poll has ended stopped in a halted state. -/
theorem settle_ended
    {outcome : Outcome}
    (ended : (run.settle state).2.1.phase = .ended outcome) :
    state.control = .halted outcome := by
  unfold settle State.pollResult at ended
  cases control : state.control <;> rw [control] at ended <;> cases ended
  rfl

/-- A fresh run begins with the program of its sketch. -/
theorem resume?_fresh
    {source : String}
    (fresh : run.phase = .fresh source)
    (isResumed : run.resume? config host = some state) :
    ∃ program log,
      program? source = some program ∧ state = .begin config program { host with log } := by
  cases run.poll_cases config host with
  | begins log begun parsed resumed polled =>
      cases begun.symm.trans fresh
      cases resumed.symm.trans isResumed
      exact ⟨_, log, congrArg Except.toOption parsed, rfl⟩
  | wakes suspended => cases suspended.symm.trans fresh
  | isNoProgram _ _ _ notResumed | hasEnded _ notResumed | isLost _ notResumed =>
      cases notResumed.symm.trans isResumed

/-- A poll without a step leaves the phase, unless it finds that the sketch is no program. -/
theorem phase_of_no_resume (none : run.resume? config host = none) :
    (run.poll config host).2.1.phase = run.phase ∨
      (∃ source, run.phase = .fresh source) ∧
        ∃ failure, (run.poll config host).2.1.phase = .ended (.failed failure) := by
  cases run.poll_cases config host with
  | begins _ _ _ resumed | wakes _ resumed => cases none.symm.trans resumed
  | isNoProgram log fresh failed notResumed polled =>
      rw [polled]
      exact .inr ⟨⟨_, fresh⟩, _, rfl⟩
  | hasEnded _ _ polled | isLost _ _ polled =>
      rw [polled]
      exact .inl rfl

end Run

namespace Course

variable {config : Config} {source : String} {run : Run} {phase : Phase} {states : List State}

/-- A fresh run has made no step. -/
theorem of_fresh
    {other : String}
    (course : Course config source (.fresh other) states) :
    states = [] ∧ other = source := by
  cases course with
  | unmoved fresh => exact ⟨rfl, fresh other rfl⟩
  | moved parsed trace begun => exact (begun other rfl).elim

/-- A poll that makes steps goes on with the course of its run. -/
theorem settle
    {initial : State}
    {program : Script.Program}
    {host : Host}
    (parsed : Run.program? source = some program)
    (trace : Trace (.begin config program host) states initial)
    (run : Run)
    (steps : Nat) :
    Course config source (run.settle (initial.advance steps)).2.1.phase
      (states ++ State.visited steps initial) :=
  .moved parsed (trace.append (.of_advance initial steps)) (Run.settle_not_fresh run _)
    (fun _ rests => Run.settle_suspended rests) fun _ ended => Run.settle_ended ended

theorem poll
    (course : Course config source run.phase states)
    (host : Host) :
    Course config source (run.poll config host).2.1.phase
      (states ++ run.visited config host) := by
  cases resumed : run.resume? config host with
  | none =>
      rw [Run.visited, resumed, List.append_nil]
      obtain same | ⟨⟨other, fresh⟩, failure, failed⟩ := Run.phase_of_no_resume resumed
      · rw [same]
        exact course
      · rw [fresh] at course
        rw [failed, course.of_fresh.1]
        exact .unmoved (fun _ => Phase.noConfusion) (fun _ => Phase.noConfusion)
          fun _ finished => Outcome.noConfusion (Phase.ended.inj finished)
  | some initial =>
      rw [Run.visited, resumed, Run.poll_of_resume resumed]
      obtain ⟨other, program, log, fresh, began⟩ | ⟨kept, rests, woken⟩ :=
        Run.resume?_cases resumed
      · obtain ⟨program, log, parsed, begins⟩ := Run.resume?_fresh fresh resumed
        rw [fresh] at course
        obtain ⟨noStates, rfl⟩ := course.of_fresh
        rw [noStates, begins]
        exact settle parsed (.nil _) run _
      · rw [rests] at course
        cases course with
        | unmoved fresh notResting => exact (notResting kept rfl).elim
        | moved parsed trace begun atRest ends =>
            obtain ⟨resting, rfl⟩ := atRest kept rfl
            rw [woken]
            have onward := trace.append (.wake host resting (.nil _))
            rw [List.append_nil] at onward
            exact settle parsed onward run _

section Lasting

variable {holds : List State → State → Prop}

/-- A lasting property that every program begins with holds before each step. -/
theorem before_step
    {past later : List State}
    {state : State}
    (course : Course config source phase (past ++ state :: later))
    (lasting : Machine.Lasting holds)
    (initially :
      ∀ program host,
        Run.program? source = some program →
        holds [] (.begin config program host)) :
    holds past state := by
  generalize whole : past ++ state :: later = states at course
  cases course with
  | unmoved => simp at whole
  | moved parsed trace =>
      rw [← whole] at trace
      exact trace.split.1.lasting lasting (initially _ _ parsed)

/-- A lasting property that every program begins with holds where the run rests. -/
theorem at_rest
    {kept : State}
    (course : Course config source (.suspended kept) states)
    (lasting : Machine.Lasting holds)
    (initially :
      ∀ program host,
        Run.program? source = some program →
        holds [] (.begin config program host)) :
    holds states kept := by
  cases course with
  | unmoved fresh notResting => exact (notResting kept rfl).elim
  | moved parsed trace begun rests =>
      obtain ⟨resting, rfl⟩ := rests kept rfl
      exact lasting.attach .detached resting
        (trace.lasting lasting (initially _ _ parsed))

/-- A lasting property that every program begins with holds where the run has finished. -/
theorem at_end
    {iterations : Nat}
    (course : Course config source (.ended (.finished iterations)) states)
    (lasting : Machine.Lasting holds)
    (initially :
      ∀ program host,
        Run.program? source = some program →
        holds [] (.begin config program host)) :
    ∃ last, last.control = .halted (.finished iterations) ∧ holds states last := by
  cases course with
  | unmoved fresh notResting notFinished => exact (notFinished iterations rfl).elim
  | moved parsed trace begun rests ends =>
      exact ⟨_, ends _ rfl, trace.lasting lasting (initially _ _ parsed)⟩

/-- A lasting property that every program begins with holds behind any steps of its run. -/
theorem behind
    {past later : List State}
    (course : Course config source phase (past ++ later))
    (lasting : Machine.Lasting holds)
    (initially :
      ∀ program host,
        Run.program? source = some program →
        holds [] (.begin config program host)) :
    past = [] ∨ ∃ state, holds past state := by
  cases later with
  | cons state later => exact .inr ⟨state, course.before_step lasting initially⟩
  | nil =>
      rw [List.append_nil] at course
      cases course with
      | unmoved => exact .inl rfl
      | moved parsed trace => exact .inr ⟨_, trace.lasting lasting (initially _ _ parsed)⟩

end Lasting

end Course

namespace Chronicle

variable {config : Config} {source : String} {chronicle : Chronicle}

theorem follow_append
    (chronicle : Chronicle)
    (earlier later : List Host) :
    chronicle.follow config (earlier ++ later) =
      (chronicle.follow config earlier).follow config later := by
  induction earlier generalizing chronicle with
  | nil => rfl
  | cons host earlier inductionHypothesis => exact inductionHypothesis _

theorem course_follow
    (course : Course config source chronicle.run.phase chronicle.states)
    (hosts : List Host) :
    Course config source (chronicle.follow config hosts).run.phase
      (chronicle.follow config hosts).states := by
  induction hosts generalizing chronicle with
  | nil => exact course
  | cons host later inductionHypothesis => exact inductionHypothesis (course.poll host)

/-- Every followed run has a course. -/
theorem course
    (config : Config)
    (generation : UInt64)
    (source : String)
    (hosts : List Host) :
    Course config source ((start generation source).follow config hosts).run.phase
      ((start generation source).follow config hosts).states := by
  have unpolled :
      Course config source (start generation source).run.phase
        (start generation source).states :=
    .unmoved (fun _ same => (Phase.fresh.inj same).symm) (fun _ => Phase.noConfusion)
      fun _ => Phase.noConfusion
  exact course_follow unpolled hosts

theorem Moment.of_getElem?
    {position : Nat}
    {state : State}
    (found : chronicle.states[position]? = some state) :
    chronicle.Moment (chronicle.states.take position) state := by
  obtain ⟨within, rfl⟩ := List.getElem?_eq_some_iff.mp found
  have whole := (List.take_append_drop position chronicle.states).symm
  rw [List.drop_eq_getElem_cons within] at whole
  exact .running whole

/-- A lasting property that the program begins with holds at every moment of its runs. -/
theorem Moment.lasting
    {generation : UInt64}
    {hosts : List Host}
    {holds : List State → State → Prop}
    {past : List State}
    {state : State}
    (moment : ((start generation source).follow config hosts).Moment past state)
    (lasting : Machine.Lasting holds)
    (initially :
      ∀ program host,
        Run.program? source = some program →
        holds [] (.begin config program host)) :
    holds past state := by
  have course := course config generation source hosts
  cases moment with
  | running whole =>
      rw [whole] at course
      exact course.before_step lasting initially
  | resting rests =>
      rw [rests] at course
      exact course.at_rest lasting initially

end Chronicle

end LedSketch
