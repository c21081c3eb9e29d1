import LedSketch.Proofs.Machine.Stale
import LedSketch.Simulation.Simulator

namespace LedSketch

/-!
# Polls

What every poll keeps, and what a poll of a stale run does: it shows nothing, takes
no click, and ends the run if the run was at rest.
-/

namespace Run

/-- A run at rest waits under a frame where runs rest. -/
def IsRestable (run : Run) : Prop :=
  ∀ state, run.phase = .suspended state →
    ∃ frame rest, state.stack = frame :: rest ∧ frame.isResting = true

/-- A poll that stops in a state shows what the run has shown until then. -/
theorem settle_shown
    (run : Run)
    (state : Machine.State) :
    (run.settle state).2.2.events = state.world.host.events ∧
      (run.settle state).2.2.clicks = state.world.host.clicks := by
  unfold settle
  dsimp only
  split <;> exact ⟨rfl, rfl⟩

/-- To settle a run leaves it of the same generation. -/
theorem settle_generation
    (run : Run)
    (state : Machine.State) :
    (run.settle state).2.1.generation = run.generation := by
  unfold settle
  dsimp only
  split <;> rfl

/-- A run that a poll leaves at rest keeps the state in which the poll stopped. -/
theorem settle_suspended
    {run : Run}
    {state kept : Machine.State}
    (suspended : (run.settle state).2.1.phase = .suspended kept) :
    state.control = .suspended ∧ kept = state.attach .detached := by
  unfold settle Machine.State.pollResult at suspended
  cases control : state.control <;> rw [control] at suspended <;> try contradiction
  cases suspended
  exact ⟨rfl, rfl⟩

/-- Once a poll has let a run go on, the run is no longer fresh. -/
theorem settle_not_fresh
    (run : Run)
    (state : Machine.State)
    (source : String) :
    (run.settle state).2.1.phase ≠ .fresh source := by
  unfold settle
  dsimp only
  split <;> exact Phase.noConfusion

/-- Only a run that waits is pending. -/
theorem settle_pending
    {run : Run}
    {state : Machine.State}
    (pending : (run.settle state).1 = .pending) :
    ∃ kept, (run.settle state).2.1.phase = .suspended kept := by
  unfold settle at *
  dsimp only at *
  cases result : state.pollResult <;> rw [result] at pending
  · exact ⟨_, rfl⟩
  · contradiction
  · contradiction

/-- A run that is settled can be polled again. -/
theorem isRestable_settle
    {state : Machine.State}
    (run : Run)
    (restable : state.IsRestable) :
    (run.settle state).2.1.IsRestable := by
  intro kept suspended
  obtain ⟨control, rfl⟩ := settle_suspended suspended
  exact restable control

/-- What the rules did is only written to the log. -/
theorem recordLowering_eq
    (host : Host)
    (applied : List Sketch.Application)
    (notes : List Sketch.Note) :
    recordLowering host applied notes =
      { host with log := (recordLowering host applied notes).log } :=
  rfl

/-- The state in which a poll lets a run go on, if it does. -/
def resume?
    (config : Config)
    (run : Run)
    (host : Host) :
    Option Machine.State :=
  match run.phase with
  | .fresh source =>
      let sketch := source.toList
      let applied := Sketch.lowerings sketch
      let lowered := Sketch.loweredBy sketch applied
      match Script.parse lowered.text with
      | .error _ => none
      | .ok program =>
          some (.begin config program (recordLowering host applied lowered.notes))
  | .suspended state => some (state.wake host)
  | .ended _ => none
  | .lost => none

section Resume

variable {config : Config} {run : Run} {host : Host} {state : Machine.State}

/-- What a poll can do with a run, and whether the run goes on in it. -/
inductive PollCases
    (config : Config)
    (run : Run)
    (host : Host) :
    Prop where
  | begins
      {source : String}
      {program : Script.Program}
      (log : Array LogEntry)
      (fresh : run.phase = .fresh source)
      (parsed :
        Script.parse (Sketch.loweredBy source.toList (Sketch.lowerings source.toList)).text =
          .ok program)
      (resumed : run.resume? config host = some (.begin config program { host with log }))
      (polled :
        run.poll config host =
          run.settle ((Machine.State.begin config program { host with log }).goOn config))
  | isNoProgram
      {source : String}
      {error : Script.ParseError}
      (log : Array LogEntry)
      (fresh : run.phase = .fresh source)
      (failed :
        Script.parse (Sketch.loweredBy source.toList (Sketch.lowerings source.toList)).text =
          .error error)
      (notResumed : run.resume? config host = none)
      (polled :
        run.poll config host =
          (.ready (.failed (.evaluation error)),
            { run with phase := .ended (.failed (.evaluation error)) }, { host with log }))
  | wakes
      {kept : Machine.State}
      (suspended : run.phase = .suspended kept)
      (resumed : run.resume? config host = some (kept.wake host))
      (polled : run.poll config host = run.settle ((kept.wake host).goOn config))
  | hasEnded
      {outcome : Outcome}
      (ended : run.phase = .ended outcome)
      (notResumed : run.resume? config host = none)
      (polled : run.poll config host = (.ready outcome, run, host))
  | isLost
      (lost : run.phase = .lost)
      (notResumed : run.resume? config host = none)
      (polled : run.poll config host = (.overBudget, run, host))

/-- What a poll does is told by the phase of the run. -/
theorem poll_cases
    (config : Config)
    (run : Run)
    (host : Host) :
    PollCases config run host := by
  cases phase : run.phase with
  | fresh source =>
      let applied := Sketch.lowerings source.toList
      let recorded := recordLowering host applied (Sketch.loweredBy source.toList applied).notes
      cases result : Script.parse (Sketch.loweredBy source.toList applied).text with
      | error error =>
          let outcome : Outcome := .failed (.evaluation error)
          let told := recorded.record (.ended run.generation.toNat outcome)
          refine .isNoProgram told.log phase result ?_ ?_
          · unfold resume?
            rw [phase]
            dsimp only
            rw [result]
          · unfold poll
            rw [phase]
            dsimp only [begin]
            rw [result]
            rfl
      | ok program =>
          refine .begins recorded.log phase result ?_ ?_
          · unfold resume?
            rw [phase]
            dsimp only
            rw [result]
            rfl
          · unfold poll
            rw [phase]
            dsimp only [begin]
            rw [result]
            rfl
  | suspended kept => exact .wakes phase (by rw [resume?, phase]) (by rw [poll, phase])
  | ended outcome => exact .hasEnded phase (by rw [resume?, phase]) (by rw [poll, phase])
  | lost => exact .isLost phase (by rw [resume?, phase]) (by rw [poll, phase])

/-- A run that goes on is at the start of its script or wakes up. -/
theorem resume?_cases (isResumed : run.resume? config host = some state) :
    (∃ source program log,
        run.phase = .fresh source ∧ state = .begin config program { host with log }) ∨
      ∃ kept, run.phase = .suspended kept ∧ state = kept.wake host := by
  cases run.poll_cases config host with
  | begins log fresh parsed resumed polled =>
      cases resumed.symm.trans isResumed
      exact .inl ⟨_, _, _, fresh, rfl⟩
  | wakes suspended resumed polled =>
      cases resumed.symm.trans isResumed
      exact .inr ⟨_, suspended, rfl⟩
  | isNoProgram _ _ _ notResumed | hasEnded _ notResumed | isLost _ notResumed =>
      cases notResumed.symm.trans isResumed

/-- A poll lets the run go on and settles it where it stops. -/
theorem poll_of_resume (isResumed : run.resume? config host = some state) :
    run.poll config host = run.settle (state.goOn config) := by
  cases run.poll_cases config host with
  | begins _ _ _ resumed polled | wakes _ resumed polled =>
      cases resumed.symm.trans isResumed
      exact polled
  | isNoProgram _ _ _ notResumed | hasEnded _ notResumed | isLost _ notResumed =>
      cases notResumed.symm.trans isResumed

/-- A poll that does not let the run go on has found or makes an end of it. -/
theorem poll_of_no_resume (none : run.resume? config host = none) :
    ∃ result phase log,
      run.poll config host = (result, { run with phase }, { host with log }) ∧
        result ≠ .pending ∧ (∀ kept, phase ≠ .suspended kept) ∧
        ∀ source, phase ≠ .fresh source := by
  cases run.poll_cases config host with
  | begins _ _ _ resumed | wakes _ resumed => cases none.symm.trans resumed
  | isNoProgram log fresh failed notResumed polled =>
      exact ⟨_, .ended _, _, polled, PollResult.noConfusion, fun _ => Phase.noConfusion,
        fun _ => Phase.noConfusion⟩
  | hasEnded ended notResumed polled =>
      exact ⟨_, run.phase, host.log, polled, PollResult.noConfusion, by simp [ended],
        by simp [ended]⟩
  | isLost lost notResumed polled =>
      exact ⟨_, run.phase, host.log, polled, PollResult.noConfusion, by simp [lost],
        by simp [lost]⟩

/-- A run that is resumed does not wait any more. -/
theorem running_of_resume (resumed : run.resume? config host = some state) :
    state.paused = false := by
  obtain ⟨source, program, log, phase, rfl⟩ | ⟨kept, phase, rfl⟩ := resume?_cases resumed
  · rfl
  · rfl

end Resume

/-- A poll leaves a run of the same generation. -/
theorem poll_generation
    (config : Config)
    (run : Run)
    (host : Host) :
    (run.poll config host).2.1.generation = run.generation := by
  cases resumed : run.resume? config host with
  | none =>
      obtain ⟨result, phase, log, polled, others⟩ := poll_of_no_resume resumed
      rw [polled]
  | some state =>
      rw [poll_of_resume resumed]
      exact settle_generation ..

/-- A run that has been polled can be polled again. -/
theorem isRestable_poll
    (config : Config)
    (run : Run)
    (host : Host) :
    (run.poll config host).2.1.IsRestable := by
  cases resumed : run.resume? config host with
  | none =>
      obtain ⟨result, phase, log, polled, notPending, notResting, notFresh⟩ :=
        poll_of_no_resume resumed
      rw [polled]
      intro kept suspended
      exact (notResting kept suspended).elim
  | some state =>
      have restable : state.IsRestable := by
        intro suspended
        have running := running_of_resume resumed
        rw [Machine.State.paused, suspended] at running
        contradiction
      rw [poll_of_resume resumed]
      exact isRestable_settle run (Machine.State.isRestable_advance restable _)

theorem aloof_begin
    (config : Config)
    (program : Script.Program)
    (host : Host) :
    Machine.Aloof (.begin config program host) :=
  ⟨rfl, Machine.Aloof.cons rfl (by simp)⟩

/-- A stale run shows nothing and takes no click. -/
theorem poll_of_stale
    {run : Run}
    {host : Host}
    (config : Config)
    (restable : run.IsRestable)
    (stale : host.live = false) :
    (run.poll config host).2.2.events = host.events ∧
      (run.poll config host).2.2.clicks = host.clicks := by
  cases resumed : run.resume? config host with
  | none =>
      obtain ⟨result, phase, log, polled, others⟩ := poll_of_no_resume resumed
      rw [polled]
      exact ⟨rfl, rfl⟩
  | some state =>
      have stopped : ∃ log, (state.goOn config).world.host = { host with log } := by
        obtain ⟨source, program, log, phase, rfl⟩ | ⟨kept, phase, rfl⟩ :=
          resume?_cases resumed
        · -- A run that begins stale is aloof; one at rest leaves what is open.
          have beganStale :
              (Machine.State.begin config program { host with log }).live = false := stale
          exact ⟨log, Machine.State.host_advance_of_stale beganStale (aloof_begin ..) _⟩
        · obtain ⟨frame, rest, top, resting⟩ := restable kept phase
          obtain ⟨halted, sameHost⟩ :=
            Machine.State.goOn_wake_of_stale config top resting stale
          exact ⟨host.log, sameHost⟩
      obtain ⟨log, sameHost⟩ := stopped
      obtain ⟨shownEvents, shownClicks⟩ := run.settle_shown (state.goOn config)
      rw [poll_of_resume resumed, shownEvents, shownClicks, sameHost]
      exact ⟨rfl, rfl⟩

/-- A stale run at rest ends as superseded when it is polled. -/
theorem poll_suspended_of_stale
    {run : Run}
    {state : Machine.State}
    {host : Host}
    (config : Config)
    (restable : run.IsRestable)
    (suspended : run.phase = .suspended state)
    (stale : host.live = false) :
    (run.poll config host).1 = .ready .superseded := by
  obtain ⟨frame, rest, top, resting⟩ := restable state suspended
  obtain ⟨halted, sameHost⟩ := Machine.State.goOn_wake_of_stale config top resting stale
  unfold poll
  rw [suspended]
  dsimp only
  unfold settle Machine.State.pollResult
  rw [halted]

/-- After a pending poll the run waits. -/
theorem poll_pending
    {run : Run}
    {config : Config}
    {host : Host}
    (pending : (run.poll config host).1 = .pending) :
    ∃ state, (run.poll config host).2.1.phase = .suspended state := by
  cases resumed : run.resume? config host with
  | none =>
      obtain ⟨result, phase, log, polled, notPending, others⟩ := poll_of_no_resume resumed
      rw [polled] at pending
      exact (notPending pending).elim
  | some state =>
      rw [poll_of_resume resumed] at pending ⊢
      exact settle_pending pending

end Run

namespace Simulator

variable {simulator : Simulator} {run : Run}

/-- A pending run is polled again. -/
theorem pollUpTo_of_pending
    (pending : (simulator.poll run).1 = .pending)
    (times : Nat) :
    pollUpTo (times + 1) simulator run =
      { pollUpTo times (simulator.poll run).2.2 (simulator.poll run).2.1 with
        polls :=
          (pollUpTo times (simulator.poll run).2.2 (simulator.poll run).2.1).polls + 1 } := by
  rw [pollUpTo]
  split
  · next polled => rw [polled]
  · next notPending polled =>
      rw [polled] at pending
      contradiction

/-- A run that is not pending has been polled once. -/
theorem pollUpTo_of_not_pending
    (notPending : (simulator.poll run).1 ≠ .pending)
    (times : Nat) :
    pollUpTo (times + 1) simulator run =
      ⟨(simulator.poll run).1, 1, (simulator.poll run).2.1, (simulator.poll run).2.2⟩ := by
  rw [pollUpTo]
  split
  · next polled =>
      rw [polled] at notPending
      contradiction
  · next polled => rw [polled]

/-- A property of a simulator and a run that every poll keeps is kept by several polls. -/
theorem pollUpTo_keeps
    (holds : Simulator → Run → Prop)
    (poll :
      ∀ simulator run,
        holds simulator run →
        holds (simulator.poll run).2.2 (simulator.poll run).2.1)
    (initially : holds simulator run)
    (times : Nat) :
    holds (pollUpTo times simulator run).simulator (pollUpTo times simulator run).run := by
  induction times generalizing simulator run with
  | zero => exact initially
  | succ times inductionHypothesis =>
      have polled := poll simulator run initially
      by_cases pending : (simulator.poll run).1 = .pending
      · rw [pollUpTo_of_pending pending]
        exact inductionHypothesis polled
      · rw [pollUpTo_of_not_pending pending]
        exact polled

theorem poll_generation : (simulator.poll run).2.1.generation = run.generation :=
  Run.poll_generation ..

/-- Polls leave a run of the same generation. -/
theorem pollUpTo_generation (times : Nat) :
    (pollUpTo times simulator run).run.generation = run.generation :=
  pollUpTo_keeps (fun _ polled => polled.generation = run.generation)
    (fun _ _ same => poll_generation.trans same) rfl times

theorem pollUpTo_config_generation
    (simulator : Simulator)
    (run : Run)
    (times : Nat) :
    (pollUpTo times simulator run).simulator.config = simulator.config ∧
      (pollUpTo times simulator run).simulator.generation = simulator.generation :=
  pollUpTo_keeps
    (fun polled _ =>
      polled.config = simulator.config ∧ polled.generation = simulator.generation)
    (fun _ _ same => same) ⟨rfl, rfl⟩ times

theorem isRestable_pollUpTo
    (restable : run.IsRestable)
    (times : Nat) :
    (pollUpTo times simulator run).run.IsRestable :=
  pollUpTo_keeps (fun _ polled => polled.IsRestable)
    (fun _ _ _ => Run.isRestable_poll _ _ _) restable times

/-- A run of another generation is not live. -/
theorem hostFor_stale
    {generation : UInt64}
    (superseded : simulator.generation ≠ generation) :
    (simulator.hostFor generation).live = false :=
  decide_eq_false superseded

/-- The polls of a superseded run leave events and clicks alone. -/
theorem pollUpTo_of_stale
    (restable : run.IsRestable)
    (superseded : simulator.generation ≠ run.generation)
    (times : Nat) :
    (pollUpTo times simulator run).simulator.events = simulator.events ∧
      (pollUpTo times simulator run).simulator.clicks = simulator.clicks := by
  induction times generalizing simulator run with
  | zero => exact ⟨rfl, rfl⟩
  | succ times inductionHypothesis =>
      obtain ⟨noEvents, noClicks⟩ := Run.poll_of_stale simulator.config restable
        (hostFor_stale superseded)
      by_cases pending : (simulator.poll run).1 = .pending
      · have stillRestable : (simulator.poll run).2.1.IsRestable :=
          Run.isRestable_poll _ _ _
        have stillSuperseded :
            (simulator.poll run).2.2.generation ≠ (simulator.poll run).2.1.generation := by
          rw [poll_generation]
          exact superseded
        obtain ⟨sameEvents, sameClicks⟩ := inductionHypothesis stillRestable stillSuperseded
        rw [pollUpTo_of_pending pending]
        exact ⟨sameEvents.trans noEvents, sameClicks.trans noClicks⟩
      · rw [pollUpTo_of_not_pending pending]
        exact ⟨noEvents, noClicks⟩

/-- A superseded run that waits is told so at its first poll. -/
theorem pollUpTo_suspended_of_stale
    {state : Machine.State}
    (restable : run.IsRestable)
    (suspended : run.phase = .suspended state)
    (superseded : simulator.generation ≠ run.generation)
    (times : Nat) :
    (pollUpTo (times + 1) simulator run).result = .ready .superseded ∧
      (pollUpTo (times + 1) simulator run).polls = 1 := by
  have ready : (simulator.poll run).1 = .ready .superseded :=
    Run.poll_suspended_of_stale simulator.config restable suspended
      (hostFor_stale superseded)
  have notPending : (simulator.poll run).1 ≠ .pending := by
    rw [ready]
    exact PollResult.noConfusion
  rw [pollUpTo_of_not_pending notPending]
  exact ⟨ready, rfl⟩

theorem pollUpTo_pending
    {times : Nat}
    (pending : (pollUpTo (times + 1) simulator run).result = .pending) :
    ∃ state, (pollUpTo (times + 1) simulator run).run.phase = .suspended state := by
  induction times generalizing simulator run with
  | zero =>
      by_cases first : (simulator.poll run).1 = .pending
      · rw [pollUpTo_of_pending first]
        exact Run.poll_pending first
      · rw [pollUpTo_of_not_pending first] at pending
        exact (first pending).elim
  | succ times inductionHypothesis =>
      by_cases first : (simulator.poll run).1 = .pending
      · rw [pollUpTo_of_pending first] at pending ⊢
        exact inductionHypothesis pending
      · rw [pollUpTo_of_not_pending first] at pending
        exact (first pending).elim

end Simulator

end LedSketch
