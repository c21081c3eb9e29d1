import LedSketch.Proofs.Simulation.Supersession
import LedSketch.Proofs.Simulation.Twin

namespace LedSketch

/-!
# Isolation

From its start to the next one, what a run shows and answers depends only on its own
source, its polls, and the presses since.  The proof compares the session with another
one that has only this run.
-/

/-- What a command shows: its answer and the events that it adds. -/
structure Observation where
  command : Command
  answer : Answer
  shown : List Event

/-- Whether a command reaches the run of a name while that run is current. -/
def Command.reaches (name : String) : Command → Bool
  | .press _ => true
  | command => command.name? = some name

namespace Session

/-- What a session shows when it carries out a command. -/
def observe
    (session : Session)
    (command : Command) :
    Observation :=
  let (answer, after) := session.perform command
  ⟨command, answer, after.simulator.events.toList.drop session.simulator.events.size⟩

/-- What a session shows when it carries out a history. -/
def observeAll (session : Session) : List Command → List Observation
  | [] => []
  | command :: later => session.observe command :: (session.perform command).2.observeAll later

theorem observeAll_cons
    (session : Session)
    (command : Command)
    (later : List Command) :
    session.observeAll (command :: later) =
      session.observe command :: (session.perform command).2.observeAll later := rfl

theorem observe_eq
    {session : Session}
    {command : Command}
    {shown : Array Event}
    (added :
      (session.perform command).2.simulator.events = session.simulator.events ++ shown) :
    session.observe command = ⟨command, (session.perform command).1, shown.toList⟩ := by
  unfold observe
  dsimp only
  rw [added]
  simp

/-- A session whose runs are all known to come from one of its starts. -/
structure Counted
    (session : Session)
    (starts : Nat) :
    Prop where
  generation : session.simulator.generation.toNat = starts
  runs : ∀ name, ∃ birth, session.KeepsFrom name birth ∧ birth.toNat ≤ starts

namespace Counted

theorem create (config : Config) : (create config).Counted 0 where
  generation := rfl
  runs _ := ⟨0, fun _ found => (nomatch found), Nat.le_refl 0⟩

/-- While generations do not run out, each start makes a new one. -/
theorem perform
    {session : Session}
    {starts : Nat}
    (counted : session.Counted starts)
    (command : Command)
    (few : starts + startCount [command] < UInt64.size) :
    (session.perform command).2.Counted (starts + startCount [command]) := by
  obtain ⟨sameConfig, counts⟩ := session.perform_config_generation command
  have generation :
      (session.perform command).2.simulator.generation.toNat =
        starts + startCount [command] := by
    rw [counts, UInt64.toNat_add, UInt64.toNat_ofNat', counted.generation]
    simp only [UInt64.size] at few
    omega
  refine ⟨generation, fun name => ?_⟩
  by_cases restarted : ∃ source, command = .start name source
  · obtain ⟨source, rfl⟩ := restarted
    exact ⟨_, .start session name source, Nat.le_of_eq generation⟩
  · obtain ⟨birth, keeps, old⟩ := counted.runs name
    have notRestarted : ∀ source, command ≠ .start name source :=
      fun source same => restarted ⟨source, same⟩
    exact ⟨birth, keeps.perform notRestarted, Nat.le_add_right_of_le old⟩

theorem performAll
    {session : Session}
    {starts : Nat}
    {commands : List Command}
    (counted : session.Counted starts)
    (few : starts + startCount commands < UInt64.size) :
    (session.performAll commands).Counted (starts + startCount commands) := by
  induction commands generalizing session starts with
  | nil => exact counted
  | cons command later inductionHypothesis =>
      rw [startCount_cons, ← Nat.add_assoc] at few ⊢
      exact inductionHypothesis (counted.perform command (by omega)) few

end Counted

/-- A session whose current run has a name, and one that has only a twin of this run. -/
structure Isolated
    (name : String)
    (whole alone : Session) :
    Prop where
  config : whole.simulator.config = alone.simulator.config
  clicks : whole.simulator.clicks = alone.simulator.clicks
  phase : (whole.run? name).map Run.phase = (alone.run? name).map Run.phase
  current : whole.KeepsFrom name whole.simulator.generation
  currentAlone : alone.KeepsFrom name alone.simulator.generation
  othersStale :
    ∀ other, other ≠ name →
      ∃ birth, whole.KeepsFrom other birth ∧ whole.simulator.generation ≠ birth

namespace Isolated

variable {name : String} {whole alone : Session}

theorem generation_perform
    {session : Session}
    {command : Command}
    (notStart : command.isStart = false) :
    (session.perform command).2.simulator.generation = session.simulator.generation := by
  obtain ⟨sameConfig, counts⟩ := session.perform_config_generation command
  rw [counts]
  simp [startCount, notStart]

theorem not_restarts
    {command : Command}
    (notStart : command.isStart = false)
    (other source : String) :
    command ≠ .start other source := by
  rintro rfl
  contradiction

/-- The run stays current, and the others stay stale, until the next start. -/
theorem current_perform
    {session : Session}
    {command : Command}
    (keeps : session.KeepsFrom name session.simulator.generation)
    (notStart : command.isStart = false) :
    (session.perform command).2.KeepsFrom name
      (session.perform command).2.simulator.generation := by
  rw [generation_perform notStart]
  exact keeps.perform (not_restarts notStart name)

theorem othersStale_perform
    {command : Command}
    (isolated : Isolated name whole alone)
    (notStart : command.isStart = false)
    (other : String)
    (different : other ≠ name) :
    ∃ birth,
      (whole.perform command).2.KeepsFrom other birth ∧
        (whole.perform command).2.simulator.generation ≠ birth := by
  obtain ⟨birth, keeps, older⟩ := isolated.othersStale other different
  rw [generation_perform notStart]
  exact ⟨birth, keeps.perform (not_restarts notStart other), older⟩

theorem observe_eq_of_same
    {session : Session}
    {command : Command}
    (same : (session.perform command).2.simulator.events = session.simulator.events) :
    session.observe command = ⟨command, (session.perform command).1, []⟩ := by
  have added :
      (session.perform command).2.simulator.events = session.simulator.events ++ #[] := by
    rw [same, Array.append_empty]
  exact observe_eq added

/-- What both sessions do alike keeps the run isolated. -/
theorem both
    {command : Command}
    (isolated : Isolated name whole alone)
    (notStart : command.isStart = false)
    (clicks :
      (whole.perform command).2.simulator.clicks =
        (alone.perform command).2.simulator.clicks)
    (phase :
      ((whole.perform command).2.run? name).map Run.phase =
        ((alone.perform command).2.run? name).map Run.phase) :
    Isolated name (whole.perform command).2 (alone.perform command).2 where
  config := by
    obtain ⟨sameWhole, counted⟩ := whole.perform_config_generation command
    obtain ⟨sameAlone, counted⟩ := alone.perform_config_generation command
    rw [sameWhole, sameAlone, isolated.config]
  clicks := clicks
  phase := phase
  current := current_perform isolated.current notStart
  currentAlone := current_perform isolated.currentAlone notStart
  othersStale := isolated.othersStale_perform notStart

/-- What only the whole session does, without touching the clicks, keeps the run isolated. -/
theorem wholeOnly
    {command : Command}
    (isolated : Isolated name whole alone)
    (notStart : command.isStart = false)
    (others : command.name? ≠ some name)
    (clicks : (whole.perform command).2.simulator.clicks = whole.simulator.clicks) :
    Isolated name (whole.perform command).2 alone where
  config := by
    obtain ⟨sameWhole, counted⟩ := whole.perform_config_generation command
    rw [sameWhole, isolated.config]
  clicks := clicks.trans isolated.clicks
  phase := by rw [run?_perform_other others, isolated.phase]
  current := current_perform isolated.current notStart
  currentAlone := isolated.currentAlone
  othersStale := isolated.othersStale_perform notStart

theorem press
    (isolated : Isolated name whole alone)
    (button : Nat) :
    whole.observe (.press button) = alone.observe (.press button) ∧
      Isolated name (whole.perform (.press button)).2 (alone.perform (.press button)).2 := by
  cases pressed : whole.simulator.clicks.press? button with
  | none =>
      have wholePress := perform_press_rejected pressed
      have alonePress := perform_press_rejected (isolated.clicks ▸ pressed)
      constructor
      · rw [observe_eq_of_same (by rw [wholePress]), observe_eq_of_same (by rw [alonePress]),
          wholePress, alonePress]
      · exact isolated.both rfl (by rw [wholePress, alonePress, isolated.clicks])
          (by rw [wholePress, alonePress, isolated.phase])
  | some clicks =>
      have wholePress := perform_press_accepted pressed
      have alonePress := perform_press_accepted (isolated.clicks ▸ pressed)
      constructor
      · rw [observe_eq_of_same (by rw [wholePress]), observe_eq_of_same (by rw [alonePress]),
          wholePress, alonePress]
      · refine isolated.both rfl (by rw [wholePress, alonePress]) ?_
        rw [wholePress, alonePress]
        exact isolated.phase

theorem poll
    (isolated : Isolated name whole alone)
    (times : Nat) :
    whole.observe (.poll name times) = alone.observe (.poll name times) ∧
      Isolated name (whole.perform (.poll name times)).2
        (alone.perform (.poll name times)).2 := by
  have samePhase := isolated.phase
  cases known : whole.run? name with
  | none =>
      rw [known] at samePhase
      have wholePoll := perform_poll_missing known times
      have alonePoll := perform_poll_missing (Option.map_eq_none_iff.mp samePhase.symm) times
      constructor
      · rw [observe_eq_of_same (by rw [wholePoll]), observe_eq_of_same (by rw [alonePoll]),
          wholePoll, alonePoll]
      · exact isolated.both rfl (by rw [wholePoll, alonePoll, isolated.clicks])
          (by rw [wholePoll, alonePoll, isolated.phase])
  | some run =>
      rw [known] at samePhase
      obtain ⟨twin, knownTwin, twinPhase⟩ := Option.map_eq_some_iff.mp samePhase.symm
      have twins : Simulator.Twins whole.simulator alone.simulator run twin :=
        ⟨isolated.config, isolated.clicks, twinPhase.symm,
          (isolated.current run known).2, (isolated.currentAlone twin knownTwin).2⟩
      obtain ⟨sameResult, samePolls, stillTwins, shown, wholeShown, aloneShown⟩ :=
        twins.pollUpTo times
      have wholePoll := perform_poll_known known times
      have alonePoll := perform_poll_known knownTwin times
      constructor
      · rw [observe_eq (by rw [wholePoll]; exact wholeShown),
          observe_eq (by rw [alonePoll]; exact aloneShown), wholePoll, alonePoll, sameResult,
          samePolls]
      · refine isolated.both rfl (by rw [wholePoll, alonePoll]; exact stillTwins.clicks) ?_
        rw [wholePoll, alonePoll, run?_keptAfter, run?_keptAfter, sameResult]
        split
        · rfl
        · exact congrArg some stillTwins.phase

theorem drop (isolated : Isolated name whole alone) :
    whole.observe (.drop name) = alone.observe (.drop name) ∧
      Isolated name (whole.perform (.drop name)).2 (alone.perform (.drop name)).2 := by
  have sameKept : (whole.run? name).isSome = (alone.run? name).isSome := by
    have samePhase := congrArg Option.isSome isolated.phase
    rwa [Option.isSome_map, Option.isSome_map] at samePhase
  constructor
  · have wholeObserved : whole.observe (.drop name) = _ := observe_eq_of_same rfl
    have aloneObserved : alone.observe (.drop name) = _ := observe_eq_of_same rfl
    rw [wholeObserved, aloneObserved]
    unfold Session.perform
    dsimp only
    rw [sameKept]
  · refine isolated.both rfl isolated.clicks ?_
    exact congrArg (Option.map Run.phase)
      (run?_otherRuns_self.trans run?_otherRuns_self.symm)

/-- A command that reaches the current run does the same to its twin. -/
theorem of_reaches
    {command : Command}
    (isolated : Isolated name whole alone)
    (notStart : command.isStart = false)
    (reaches : command.reaches name = true) :
    whole.observe command = alone.observe command ∧
      Isolated name (whole.perform command).2 (alone.perform command).2 := by
  cases command with
  | start started source => contradiction
  | poll polled times =>
      have same : polled = name := by simpa [Command.reaches, Command.name?] using reaches
      subst same
      exact isolated.poll times
  | press button => exact isolated.press button
  | drop dropped =>
      have same : dropped = name := by simpa [Command.reaches, Command.name?] using reaches
      subst same
      exact isolated.drop

/-- Polls and drops of other runs leave no trace. -/
theorem of_not_reaches
    {command : Command}
    (isolated : Isolated name whole alone)
    (notStart : command.isStart = false)
    (misses : command.reaches name = false) :
    (whole.observe command).shown = [] ∧ Isolated name (whole.perform command).2 alone := by
  have others : command.name? ≠ some name := by
    intro about
    cases command <;> simp_all [Command.reaches]
  have inert :
      (whole.perform command).2.simulator.events = whole.simulator.events ∧
        (whole.perform command).2.simulator.clicks = whole.simulator.clicks := by
    cases command with
    | start started source => contradiction
    | poll polled times =>
        have different : polled ≠ name := fun same => others (congrArg some same)
        obtain ⟨birth, keeps, older⟩ := isolated.othersStale polled different
        apply perform_poll_of_stale
        intro run known
        obtain ⟨restable, born⟩ := keeps run known
        exact ⟨restable, born ▸ older⟩
    | press button => contradiction
    | drop dropped => exact ⟨rfl, rfl⟩
  obtain ⟨noEvents, noClicks⟩ := inert
  constructor
  · rw [observe_eq_of_same noEvents]
  · exact isolated.wholeOnly notStart others noClicks

/-- Starting a run isolates it from everything before. -/
theorem start
    {before fresh : Session}
    {starts : Nat}
    (counted : before.Counted starts)
    (few : starts + 1 < UInt64.size)
    (sameConfig : before.simulator.config = fresh.simulator.config)
    (name source : String) :
    before.observe (.start name source) = fresh.observe (.start name source) ∧
      Isolated name (before.perform (.start name source)).2
        (fresh.perform (.start name source)).2 := by
  constructor
  · have reset (session : Session) :
        session.observe (.start name source) = ⟨.start name source, .started, [.reset]⟩ :=
      observe_eq Array.push_eq_append
    rw [reset, reset]
  · refine ⟨sameConfig, rfl, ?_, .start before name source, .start fresh name source, ?_⟩
    · have fresh (session : Session) :
          ((session.perform (.start name source)).2.run? name).map Run.phase =
            some (.fresh source) :=
        congrArg (Option.map Run.phase) run?_front
      rw [fresh, fresh]
    · intro other different
      obtain ⟨birth, keeps, old⟩ := counted.runs other
      have notRestarted : ∀ otherSource, .start name source ≠ Command.start other otherSource := by
        rintro otherSource same
        cases same
        exact different rfl
      have newGeneration := (counted.perform (.start name source) few).generation
      refine ⟨birth, keeps.perform notRestarted, ?_⟩
      rintro rfl
      rw [newGeneration] at old
      exact Nat.not_succ_le_self starts old

/-- As long as no other run is started, only what reaches the run is shown, as alone. -/
theorem observeAll
    {commands : List Command}
    (isolated : Isolated name whole alone)
    (noStart : ∀ command ∈ commands, command.isStart = false) :
    (whole.observeAll commands).filter (fun observation => observation.command.reaches name) =
        alone.observeAll (commands.filter (Command.reaches name)) ∧
      ∀ observation ∈ whole.observeAll commands,
        observation.command.reaches name = false → observation.shown = [] := by
  -- The whole session carries out every command, the other one those that reach the run.
  induction commands generalizing whole alone with
  | nil => exact ⟨rfl, by simp [Session.observeAll]⟩
  | cons command later inductionHypothesis =>
      have notStart := noStart command List.mem_cons_self
      have laterStarts : ∀ command ∈ later, command.isStart = false :=
        fun other member => noStart other (List.mem_cons_of_mem _ member)
      have observed : (whole.observe command).command = command := rfl
      rw [observeAll_cons]
      by_cases reaches : command.reaches name = true
      · obtain ⟨same, stillIsolated⟩ := isolated.of_reaches notStart reaches
        obtain ⟨sameLater, quietLater⟩ := inductionHypothesis stillIsolated laterStarts
        rw [List.filter_cons_of_pos (by rw [observed]; exact reaches),
          List.filter_cons_of_pos reaches, observeAll_cons, sameLater, same]
        refine ⟨rfl, ?_⟩
        intro observation member misses
        rcases List.mem_cons.mp member with rfl | inLater
        · exact absurd reaches (Bool.eq_false_iff.mp misses)
        · exact quietLater observation inLater misses
      · have misses := Bool.eq_false_iff.mpr reaches
        obtain ⟨quiet, stillIsolated⟩ := isolated.of_not_reaches notStart misses
        obtain ⟨sameLater, quietLater⟩ := inductionHypothesis stillIsolated laterStarts
        rw [List.filter_cons_of_neg (by rw [observed]; exact reaches),
          List.filter_cons_of_neg reaches]
        refine ⟨sameLater, ?_⟩
        intro observation member missed
        rcases List.mem_cons.mp member with rfl | inLater
        · exact quiet
        · exact quietLater observation inLater missed

end Isolated

/--
Whatever happened in a session before, a run that is started answers and shows exactly
what it does as the only run of a fresh session that gets the polls of this run and the
presses since; nothing else shows anything until the next start.
-/
theorem current_run_isolated
    (config : Config)
    (history later : List Command)
    (name source : String)
    (few : startCount history + 1 < UInt64.size)
    (noStart : ∀ command ∈ later, command.isStart = false) :
    let observed :=
      ((create config).performAll history).observeAll (.start name source :: later)
    observed.filter (fun observation => observation.command.reaches name) =
        (create config).observeAll
          (.start name source :: later.filter (Command.reaches name)) ∧
      ∀ observation ∈ observed,
        observation.command.reaches name = false → observation.shown = [] := by
  intro observed
  have fewBefore : 0 + startCount history < UInt64.size := by omega
  have counted := (Counted.create config).performAll fewBefore
  obtain ⟨sameConfig, generations⟩ := (create config).performAll_config_generation history
  rw [Nat.zero_add] at counted
  obtain ⟨sameStart, isolated⟩ := Isolated.start counted few sameConfig name source
  obtain ⟨sameLater, quietLater⟩ := isolated.observeAll noStart
  have reaches : (Command.start name source).reaches name = true := by
    simp [Command.reaches, Command.name?]
  constructor
  · have startReaches :
        (((create config).performAll history).observe (.start name source)).command.reaches
          name = true := reaches
    rw [observeAll_cons, ← sameLater, ← sameStart]
    exact List.filter_cons_of_pos startReaches
  · intro observation member misses
    rcases List.mem_cons.mp member with rfl | inLater
    · exact absurd reaches (Bool.eq_false_iff.mp misses)
    · exact quietLater observation inLater misses

/-- A run that follows another one, whose polls and left clicks leave no trace. -/
theorem current_run_isolated_from_earlier :
    startCount [.start "old" "delay(1);", .poll "old" 1, .press 0] + 1 < UInt64.size ∧
      (((create ⟨1, none, .grb, 1000⟩).performAll
          [.start "old" "delay(1);", .poll "old" 1, .press 0]).observeAll
            [.start "new" "delay(2);", .poll "old" 1, .press 3, .poll "new" 2,
              .drop "old"]).filter (fun observation => observation.command.reaches "new") =
        (create ⟨1, none, .grb, 1000⟩).observeAll
          [.start "new" "delay(2);", .press 3, .poll "new" 2] := by
  have few : startCount [.start "old" "delay(1);", .poll "old" 1, .press 0] + 1 < UInt64.size := by
    decide
  obtain ⟨alike, quiet⟩ :=
    current_run_isolated ⟨1, none, .grb, 1000⟩
      [.start "old" "delay(1);", .poll "old" 1, .press 0]
      [.poll "old" 1, .press 3, .poll "new" 2, .drop "old"] "new" "delay(2);" few (by decide)
  exact ⟨few, alike⟩

end Session

end LedSketch
