import LedSketch.Proofs.Simulation.History
import LedSketch.Proofs.Simulation.HostCalls
import LedSketch.Proofs.Sketch.Alignment

namespace LedSketch

/-!
# Where runs fail

A run that fails points to a line of its sketch, unless it fails in a call that the sketch
does not contain, or by a jump that ends the program.
-/

open Script (Failure IsLineOf RuntimeFault)

namespace Sketch

/-- A script has the lines of its sketch. -/
theorem isLineOf_lowered (source : List Char) :
    IsLineOf (loweredBy source (lowerings source)).text = IsLineOf source := by
  have sameCount :
      (loweredBy source (lowerings source)).text.count '\n' = source.count '\n' :=
    count_lower source
  unfold IsLineOf
  rw [sameCount]

end Sketch

namespace Chronicle

variable {config : Config} {generation : UInt64} {source : String} {hosts : List Host}

theorem leavesLines_begin
    (config : Config)
    (source : String)
    (program : Script.Program)
    (host : Host)
    (isProgram : Run.program? source = some program) :
    Machine.LeavesLines source.toList [] (.begin config program host) := by
  have onLines :=
    Script.parse_within (Sketch.loweredBy source.toList (Sketch.lowerings source.toList)).text
  rw [Sketch.isLineOf_lowered] at onLines
  unfold Run.program? at isProgram
  dsimp only at isProgram
  cases parsed :
      Script.parse (Sketch.loweredBy source.toList (Sketch.lowerings source.toList)).text with
  | error error =>
      rw [parsed] at isProgram
      contradiction
  | ok begun =>
      rw [parsed] at isProgram onLines
      cases isProgram
      exact .inl ⟨Machine.State.within_begin config host onLines, fun _ _ => nofun⟩

/-- A run that has failed did so on a line of its sketch, or in one of its steps off them. -/
theorem failure_cases
    {failure : Failure}
    (ended :
      ((start generation source).follow config hosts).run.phase = .ended (.failed failure)) :
    IsLineOf source.toList failure.line ∨
      ∃ fault,
        failure = .runtime 0 fault ∧
          ∃ state ∈ ((start generation source).follow config hosts).states,
            state.FailsOffLines fault := by
  obtain ⟨error, failed, same⟩ | ⟨last, halted, _, _, leaves⟩ :=
    ended_lasting ended (Machine.Lasting.leavesLines config.limit source.toList)
      fun program host isProgram =>
        ⟨⟨rfl, .begin config program host⟩, ⟨⟨rfl, trivial, Nat.zero_le _⟩, rfl⟩,
          leavesLines_begin config source program host isProgram⟩
  · cases same
    have onLines :=
      Script.parse_within (Sketch.loweredBy source.toList (Sketch.lowerings source.toList)).text
    rw [Sketch.isLineOf_lowered, failed] at onLines
    exact .inl onLines
  · obtain onLines | ⟨state, member, fault, fails, failing⟩ := leaves
    · have located := onLines.within.control
      rw [halted] at located
      exact .inl located
    · rw [halted] at failing
      cases failing
      exact .inr ⟨fault, rfl, state, member, fails⟩

end Chronicle

namespace Run

/-- A run that has been followed from its start through some polls. -/
def IsFollowed
    (config : Config)
    (source : String)
    (run : Run) :
    Prop :=
  ∃ generation hosts, run = ((Chronicle.start generation source).follow config hosts).run

/-- A run that some further polls lead to a step which fails off the lines of its sketch. -/
def FailsOffLines
    (config : Config)
    (source : String)
    (fault : RuntimeFault)
    (run : Run) :
    Prop :=
  ∃ generation before hosts,
    let chronicle := (Chronicle.start generation source).follow config (before ++ hosts)
    run = ((Chronicle.start generation source).follow config before).run ∧
      chronicle.run.phase = .ended (.failed (.runtime 0 fault)) ∧
        ∃ state ∈ chronicle.states, state.FailsOffLines fault

end Run

namespace Simulator

/-- Several polls follow a run further, and an outcome that they answer has ended it. -/
theorem follow_pollUpTo
    (simulator : Simulator)
    (chronicle : Chronicle)
    (times : Nat) :
    ∃ hosts,
      (pollUpTo times simulator chronicle.run).run =
          (chronicle.follow simulator.config hosts).run ∧
        ∀ outcome,
          (pollUpTo times simulator chronicle.run).result = .ready outcome →
          (chronicle.follow simulator.config hosts).run.phase = .ended outcome := by
  induction times generalizing simulator chronicle with
  | zero => exact ⟨[], rfl, fun _ => nofun⟩
  | succ times inductionHypothesis =>
      let host := simulator.hostFor chronicle.run.generation
      by_cases pending : (simulator.poll chronicle.run).1 = .pending
      · obtain ⟨hosts, followed, ends⟩ :=
          inductionHypothesis (simulator.poll chronicle.run).2.2
            (chronicle.poll simulator.config host)
        rw [pollUpTo_of_pending pending]
        exact ⟨host :: hosts, followed, ends⟩
      · rw [pollUpTo_of_not_pending pending]
        exact ⟨[host], rfl, fun outcome => Run.ended_of_ready⟩

end Simulator

/-- The failure that an answer tells of. -/
def Answer.failure? : Answer → Option Failure
  | .polled (.ready (.failed failure)) _ => some failure
  | _ => none

theorem Answer.ready_of_failure?
    {result : PollResult}
    {polls : Nat}
    {failure : Failure}
    (failed : (Answer.polled result polls).failure? = some failure) :
    result = .ready (.failed failure) := by
  unfold failure? at failed
  split at failed
  · next told same =>
      cases same
      cases failed
      rfl
  · contradiction

namespace Session

/-- A run that is kept has been followed from its start. -/
theorem retains_isFollowed
    {name : String}
    {later : List Command}
    (config : Config)
    (earlier : List Command)
    (source : String)
    (notRestarted : ∀ other, .start name other ∉ later) :
    ((create config).performAll (earlier ++ .start name source :: later)).Retains name
      (Run.IsFollowed config source) := by
  have sameConfig : ((create config).performAll earlier).simulator.config = config :=
    ((create config).performAll_config_generation earlier).1
  have started :
      (((create config).performAll earlier).perform (.start name source)).2.Retains name
        (Run.IsFollowed config source) :=
    .start _ name source ⟨_, [], rfl⟩
  rw [performAll_append]
  refine started.performAll ?_ notRestarted
  rintro simulator run times keptConfig ⟨generation, hosts, rfl⟩
  have keptConfig : simulator.config = config := keptConfig.trans sameConfig
  obtain ⟨later, followed, _⟩ :=
    simulator.follow_pollUpTo ((Chronicle.start generation source).follow config hosts) times
  refine ⟨generation, hosts ++ later, ?_⟩
  rw [followed, keptConfig, Chronicle.follow_append]

/-- A followed run that a poll finds failed did so on a line of its sketch, or off the lines. -/
theorem located_poll
    {session : Session}
    {name source : String}
    {run : Run}
    {failure : Failure}
    {times : Nat}
    (known : session.run? name = some run)
    (isFollowed : run.IsFollowed session.simulator.config source)
    (answered : (session.perform (.poll name times)).1.failure? = some failure) :
    IsLineOf source.toList failure.line ∨
      ∃ fault,
        failure = .runtime 0 fault ∧
          run.FailsOffLines session.simulator.config source fault := by
  obtain ⟨generation, before, rfl⟩ := isFollowed
  obtain ⟨hosts, followed, ends⟩ :=
    session.simulator.follow_pollUpTo
      ((Chronicle.start generation source).follow _ before) times
  rw [perform_poll_known known] at answered
  have ended := ends _ (Answer.ready_of_failure? answered)
  rw [← Chronicle.follow_append] at ended
  obtain onLine | ⟨fault, rfl, fails⟩ := Chronicle.failure_cases ended
  · exact .inl onLine
  · exact .inr ⟨fault, rfl, generation, before, hosts, rfl, ended, fails⟩

/--
A run that fails does so on a line of its sketch, unless it fails on line zero in a step
off the lines: a jump that ends the program, a call of `setup` or `loop` whose scope has
been closed, or a native function that is called for a click and misses its arguments.
-/
theorem failure_located
    (config : Config)
    (earlier later : List Command)
    (name source : String)
    (times : Nat)
    (failure : Failure)
    (notRestarted : ∀ other, .start name other ∉ later)
    (answered :
      (((create config).performAll (earlier ++ .start name source :: later)).perform
        (.poll name times)).1.failure? = some failure) :
    (1 ≤ failure.line ∧ failure.line ≤ 1 + source.toList.count '\n') ∨
      ∃ fault run,
        failure = .runtime 0 fault ∧
          ((create config).performAll (earlier ++ .start name source :: later)).run? name =
              some run ∧
            run.FailsOffLines config source fault := by
  have kept := retains_isFollowed config earlier source notRestarted
  have sameConfig :
      ((create config).performAll (earlier ++ .start name source :: later)).simulator.config =
        config :=
    ((create config).performAll_config_generation _).1
  cases known :
      ((create config).performAll (earlier ++ .start name source :: later)).run? name with
  | none =>
      rw [perform_poll_missing known] at answered
      contradiction
  | some run =>
      have isFollowed := kept run known
      rw [← sameConfig] at isFollowed
      obtain onLine | ⟨fault, same, fails⟩ := located_poll known isFollowed answered
      · exact .inl onLine
      · rw [sameConfig] at fails
        exact .inr ⟨fault, run, same, rfl, fails⟩

/-- A native function that misses its argument when a button is pressed is on no line. -/
theorem failure_located_of_native_handler :
    ∃ failure fault run,
      (((create ⟨1, none, .grb, 1000⟩).performAll
          [.start "sketch" "createButton(1).onClick(delay);\ndelay(5);", .poll "sketch" 1,
            .press 0]).perform (.poll "sketch" 1)).1.failure? = some failure ∧
        failure = .runtime 0 fault ∧
        ((create ⟨1, none, .grb, 1000⟩).performAll
            [.start "sketch" "createButton(1).onClick(delay);\ndelay(5);", .poll "sketch" 1,
              .press 0]).run? "sketch" = some run ∧
          run.FailsOffLines ⟨1, none, .grb, 1000⟩
            "createButton(1).onClick(delay);\ndelay(5);" fault := by
  have fails :
      (((create ⟨1, none, .grb, 1000⟩).performAll
          [.start "sketch" "createButton(1).onClick(delay);\ndelay(5);", .poll "sketch" 1,
            .press 0]).perform (.poll "sketch" 1)).1.failure?.map Failure.line = some 0 := by
    decide +kernel
  obtain ⟨failure, answered, nowhere⟩ := Option.map_eq_some_iff.mp fails
  obtain ⟨positive, _⟩ | ⟨fault, run, same, known, off⟩ :=
    failure_located ⟨1, none, .grb, 1000⟩ [] [.poll "sketch" 1, .press 0] "sketch" _ 1
      failure (by simp) answered
  · omega
  · exact ⟨failure, fault, run, answered, same, known, off⟩

/-- Not every failure is on a line of its sketch: a stray break is on line zero. -/
theorem failure_not_on_line_of_stray_break :
    ¬ ∀ (config : Config) (earlier later : List Command) (name source : String)
        (times : Nat) (failure : Failure),
      (∀ other, .start name other ∉ later) →
      (((create config).performAll (earlier ++ .start name source :: later)).perform
        (.poll name times)).1.failure? = some failure →
      1 ≤ failure.line ∧ failure.line ≤ 1 + source.toList.count '\n' := by
  intro onLine
  have fails :
      (((create ⟨1, none, .grb, 1000⟩).performAll [.start "sketch" "break;"]).perform
        (.poll "sketch" 1)).1.failure?.map Failure.line = some 0 := by
    decide +kernel
  obtain ⟨failure, answered, nowhere⟩ := Option.map_eq_some_iff.mp fails
  have positive : 1 ≤ failure.line :=
    (onLine ⟨1, none, .grb, 1000⟩ [] [] "sketch" "break;" 1 failure (by simp) answered).1
  omega

end Session

end LedSketch
