import LedSketch.Proofs.Simulation.Poll
import LedSketch.Simulation.Session

namespace LedSketch

/-!
# Histories

A history is a list of commands.  It tells which runs a session keeps, and how many
runs have been started since.
-/

namespace Command

/-- The name of the run that a command is about. -/
def name? : Command → Option String
  | .start name _ => some name
  | .poll name _ => some name
  | .press _ => none
  | .drop name => some name

/-- Whether a command starts a run. -/
def isStart : Command → Bool
  | .start _ _ => true
  | _ => false

end Command

/-- Whether an answer tells that a run is pending after so many polls. -/
def Answer.isPendingAfter (polls : Nat) : Answer → Bool
  | .polled .pending made => made = polls
  | _ => false

theorem Answer.eq_of_isPendingAfter
    {answer : Answer}
    {polls : Nat}
    (pending : answer.isPendingAfter polls = true) :
    answer = .polled .pending polls := by
  unfold isPendingAfter at pending
  split at pending
  · next made => rw [of_decide_eq_true pending]
  · contradiction

/-- How many runs a history starts. -/
def startCount (commands : List Command) : Nat := commands.countP Command.isStart

/-- Starts are counted command by command. -/
theorem startCount_cons
    (command : Command)
    (later : List Command) :
    startCount (command :: later) = startCount [command] + startCount later := by
  unfold startCount
  rw [← List.countP_append, List.singleton_append]

namespace Session

/-- Carry out a history. -/
def performAll (session : Session) : List Command → Session
  | [] => session
  | command :: later => (session.perform command).2.performAll later

/-- A history can be carried out in two parts. -/
theorem performAll_append
    (session : Session)
    (earlier later : List Command) :
    session.performAll (earlier ++ later) = (session.performAll earlier).performAll later := by
  induction earlier generalizing session with
  | nil => rfl
  | cons command earlier inductionHypothesis => exact inductionHypothesis _

section Lookup

variable {session : Session} {simulator : Simulator} {name other : String} {run : Run}

/-- The run that has been put in front is found. -/
theorem run?_front :
    (Session.mk simulator ((name, run) :: session.otherRuns name)).run? name = some run := by
  simp [run?]

/-- A run is not among the others. -/
theorem run?_otherRuns_self :
    (Session.mk simulator (session.otherRuns name)).run? name = none := by
  simp [run?, otherRuns]

/-- The others are found as before. -/
theorem run?_otherRuns_other (different : other ≠ name) :
    (Session.mk simulator (session.otherRuns name)).run? other = session.run? other := by
  unfold run? otherRuns
  rw [List.find?_filter]
  congr 2
  funext entry
  by_cases same : entry.1 = other <;> simp [same, different]

theorem run?_front_other (different : other ≠ name) :
    (Session.mk simulator ((name, run) :: session.otherRuns name)).run? other =
      session.run? other := by
  have skipped : decide (name = other) = false := decide_eq_false (Ne.symm different)
  have others :
      (Session.mk simulator (session.otherRuns name)).run? other = session.run? other :=
    run?_otherRuns_other different
  unfold run? at *
  rw [List.find?_cons, skipped]
  exact others

/-- A run is kept unless it has ended. -/
theorem run?_keptAfter
    (result : PollResult) :
    (Session.mk simulator (keptAfter name run result ++ session.otherRuns name)).run? name =
      match result with
      | .ready _ => none
      | _ => some run := by
  cases result with
  | ready outcome => exact run?_otherRuns_self
  | pending => exact run?_front
  | overBudget => exact run?_front

/-- The others are kept. -/
theorem run?_keptAfter_other
    (result : PollResult)
    (different : other ≠ name) :
    (Session.mk simulator (keptAfter name run result ++ session.otherRuns name)).run? other =
      session.run? other := by
  cases result with
  | ready outcome => exact run?_otherRuns_other different
  | pending => exact run?_front_other different
  | overBudget => exact run?_front_other different

end Lookup

section Perform

variable {session : Session} {name : String}

/-- A run that is not known is not polled. -/
theorem perform_poll_missing
    (missing : session.run? name = none)
    (times : Nat) :
    session.perform (.poll name times) = (.noSuchRun, session) := by
  rw [perform, missing]

/-- A run that is known is polled as often as asked. -/
theorem perform_poll_known
    {run : Run}
    (known : session.run? name = some run)
    (times : Nat) :
    session.perform (.poll name times) =
      (.polled (Simulator.pollUpTo times session.simulator run).result
          (Simulator.pollUpTo times session.simulator run).polls,
        ⟨(Simulator.pollUpTo times session.simulator run).simulator,
          keptAfter name (Simulator.pollUpTo times session.simulator run).run
              (Simulator.pollUpTo times session.simulator run).result ++
            session.otherRuns name⟩) := by
  rw [perform, known]

/-- A press is queued if there is room. -/
theorem perform_press_accepted
    {button : Nat}
    {clicks : ClickQueue}
    (accepted : session.simulator.clicks.press? button = some clicks) :
    session.perform (.press button) =
      (.queued, { session with simulator := { session.simulator with clicks } }) := by
  rw [perform, Simulator.press?, accepted]
  rfl

/-- A press is dropped if there is no room. -/
theorem perform_press_rejected
    {button : Nat}
    (rejected : session.simulator.clicks.press? button = none) :
    session.perform (.press button) = (.full button, session) := by
  rw [perform, Simulator.press?, rejected]
  rfl

/-- A press concerns the clicks only. -/
theorem perform_press
    (session : Session)
    (button : Nat) :
    ∃ clicks,
      (session.perform (.press button)).2 =
        { session with simulator := { session.simulator with clicks } } := by
  cases pressed : session.simulator.clicks.press? button with
  | none => exact ⟨session.simulator.clicks, by rw [perform_press_rejected pressed]⟩
  | some clicks => exact ⟨clicks, by rw [perform_press_accepted pressed]⟩

/-- A command leaves the runs that it is not about. -/
theorem run?_perform_other
    {command : Command}
    (other : command.name? ≠ some name) :
    (session.perform command).2.run? name = session.run? name := by
  cases command with
  | start started source =>
      have different : name ≠ started := fun same => other (congrArg some same.symm)
      exact run?_front_other different
  | poll polled times =>
      have different : name ≠ polled := fun same => other (congrArg some same.symm)
      cases known : session.run? polled with
      | none => rw [perform_poll_missing known]
      | some run =>
          rw [perform_poll_known known]
          exact run?_keptAfter_other _ different
  | press button =>
      obtain ⟨clicks, pressed⟩ := session.perform_press button
      rw [pressed]
      rfl
  | drop dropped =>
      have different : name ≠ dropped := fun same => other (congrArg some same.symm)
      exact run?_otherRuns_other different

/-- Commands for other runs leave a run as it is. -/
theorem run?_performAll_other
    {commands : List Command}
    (others : ∀ command ∈ commands, command.name? ≠ some name) :
    (session.performAll commands).run? name = session.run? name := by
  induction commands generalizing session with
  | nil => rfl
  | cons command later inductionHypothesis =>
      have first := others command List.mem_cons_self
      have rest : ∀ command ∈ later, command.name? ≠ some name :=
        fun other member => others other (List.mem_cons_of_mem _ member)
      exact (inductionHypothesis rest).trans (run?_perform_other first)

/-- No command changes the configuration, and only a start changes the generation. -/
theorem perform_config_generation
    (session : Session)
    (command : Command) :
    (session.perform command).2.simulator.config = session.simulator.config ∧
      (session.perform command).2.simulator.generation =
        session.simulator.generation + UInt64.ofNat (startCount [command]) := by
  cases command with
  | start started source => exact ⟨rfl, rfl⟩
  | poll polled times =>
      have unchanged : session.simulator.generation + UInt64.ofNat 0 =
          session.simulator.generation :=
        UInt64.add_zero _
      cases known : session.run? polled with
      | none =>
          rw [perform_poll_missing known]
          exact ⟨rfl, unchanged.symm⟩
      | some run =>
          rw [perform_poll_known known]
          obtain ⟨sameConfig, sameGeneration⟩ :=
            Simulator.pollUpTo_config_generation session.simulator run times
          exact ⟨sameConfig, sameGeneration.trans unchanged.symm⟩
  | press button =>
      obtain ⟨clicks, pressed⟩ := session.perform_press button
      rw [pressed]
      exact ⟨rfl, (UInt64.add_zero _).symm⟩
  | drop dropped => exact ⟨rfl, (UInt64.add_zero _).symm⟩

/-- The generation counts the starts, and begins again after the last number. -/
theorem performAll_config_generation
    (session : Session)
    (commands : List Command) :
    (session.performAll commands).simulator.config = session.simulator.config ∧
      (session.performAll commands).simulator.generation =
        session.simulator.generation + UInt64.ofNat (startCount commands) := by
  induction commands generalizing session with
  | nil => exact ⟨rfl, (UInt64.add_zero _).symm⟩
  | cons command later inductionHypothesis =>
      obtain ⟨firstConfig, firstGeneration⟩ := session.perform_config_generation command
      obtain ⟨laterConfig, laterGeneration⟩ := inductionHypothesis (session.perform command).2
      refine ⟨laterConfig.trans firstConfig, laterGeneration.trans ?_⟩
      rw [firstGeneration, UInt64.add_assoc, ← UInt64.ofNat_add, ← startCount_cons]

end Perform

/-- Whatever run is kept under a name has a property. -/
def Retains
    (session : Session)
    (name : String)
    (Property : Run → Prop) :
    Prop :=
  ∀ run, session.run? name = some run → Property run

section Retains

variable {session : Session} {name : String} {Property : Run → Prop}

/-- Until another run is started under its name, a run keeps what its polls keep. -/
theorem Retains.perform
    {command : Command}
    (retains : session.Retains name Property)
    (polled :
      ∀ simulator run times,
        simulator.config = session.simulator.config →
        Property run →
        Property (Simulator.pollUpTo times simulator run).run)
    (notRestarted : ∀ source, command ≠ .start name source) :
    (session.perform command).2.Retains name Property := by
  by_cases about : command.name? = some name
  · cases command with
    | start started source =>
        cases about
        exact (notRestarted source rfl).elim
    | poll asked times =>
        cases about
        cases known : session.run? name with
        | none =>
            rw [perform_poll_missing known]
            exact retains
        | some run =>
            rw [perform_poll_known known]
            intro kept found
            rw [run?_keptAfter] at found
            split at found
            · contradiction
            · cases found
              exact polled session.simulator run times rfl (retains run known)
    | press button => contradiction
    | drop dropped =>
        cases about
        intro kept found
        cases run?_otherRuns_self.symm.trans found
  · intro kept found
    rw [run?_perform_other about] at found
    exact retains kept found

/-- What polls keep is kept by a history without a new start. -/
theorem Retains.performAll
    {commands : List Command}
    (retains : session.Retains name Property)
    (polled :
      ∀ simulator run times,
        simulator.config = session.simulator.config →
        Property run →
        Property (Simulator.pollUpTo times simulator run).run)
    (notRestarted : ∀ source, .start name source ∉ commands) :
    (session.performAll commands).Retains name Property := by
  induction commands generalizing session with
  | nil => exact retains
  | cons command later inductionHypothesis =>
      have first : ∀ source, command ≠ .start name source := by
        intro source same
        exact notRestarted source (same ▸ List.mem_cons_self)
      have rest : ∀ source, .start name source ∉ later := by
        intro source member
        exact notRestarted source (List.mem_cons_of_mem _ member)
      refine inductionHypothesis (retains.perform polled first) ?_ rest
      intro simulator run times sameConfig
      exact polled simulator run times
        (sameConfig.trans (session.perform_config_generation command).1)

/-- The run that a start retains has not been polled. -/
theorem Retains.start
    (session : Session)
    (name source : String)
    (fresh : Property (session.simulator.start source).1) :
    (session.perform (.start name source)).2.Retains name Property := by
  intro run found
  cases run?_front.symm.trans found
  exact fresh

end Retains

/-- Whatever run is kept under a name has been started in a generation. -/
def KeepsFrom
    (session : Session)
    (name : String)
    (generation : UInt64) :
    Prop :=
  ∀ run, session.run? name = some run → run.IsRestable ∧ run.generation = generation

section KeepsFrom

variable {session : Session} {name : String} {generation : UInt64}

/-- A polled run is of the same generation, and can be polled again. -/
theorem born_pollUpTo
    (simulator : Simulator)
    (run : Run)
    (times : Nat)
    (_ : simulator.config = session.simulator.config)
    (born : run.IsRestable ∧ run.generation = generation) :
    (Simulator.pollUpTo times simulator run).run.IsRestable ∧
      (Simulator.pollUpTo times simulator run).run.generation = generation :=
  ⟨Simulator.isRestable_pollUpTo born.1 times,
    (Simulator.pollUpTo_generation times).trans born.2⟩

/-- Until another run is started under its name, a run stays in its generation. -/
theorem KeepsFrom.perform
    {command : Command}
    (keeps : session.KeepsFrom name generation)
    (notRestarted : ∀ source, command ≠ .start name source) :
    (session.perform command).2.KeepsFrom name generation :=
  Retains.perform keeps born_pollUpTo notRestarted

/-- A run is kept from its start on, if it is not started again. -/
theorem KeepsFrom.performAll
    {commands : List Command}
    (keeps : session.KeepsFrom name generation)
    (notRestarted : ∀ source, .start name source ∉ commands) :
    (session.performAll commands).KeepsFrom name generation :=
  Retains.performAll keeps born_pollUpTo notRestarted

end KeepsFrom

/-- A run that has just been started is kept from the generation it begins. -/
theorem KeepsFrom.start
    (session : Session)
    (name source : String) :
    (session.perform (.start name source)).2.KeepsFrom name
      (session.perform (.start name source)).2.simulator.generation :=
  Retains.start session name source ⟨fun state suspended => by contradiction, rfl⟩

end Session

end LedSketch
