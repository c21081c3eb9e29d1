import LedSketch.Proofs.Host.Announced
import LedSketch.Proofs.Machine.Transition
import LedSketch.Proofs.Simulation.Supersession
import Mathlib.Data.List.Induction

namespace LedSketch

/-!
# Well-formed traces of events

Between one reset and the next, the events of a history announce strips and buttons in
order, and every frame fits a strip that has been announced since the reset.
-/

namespace Machine

variable {state next : State} {past : List Event}

/-- A step shows nothing and leaves the board, but for the effects of a native call. -/
theorem Transition.effects (transition : Transition state next) :
    ∃ world,
      Native.Effects state.world world ∧
        next.world.board = world.board ∧ next.world.host.events = world.host.events := by
  cases transition with
  | work plain onward =>
      exact ⟨state.world, .refl, onward.board, congrArg Host.events onward.host⟩
  | take plain top plainFrame onward =>
      exact ⟨state.world, .refl, onward.board, congrArg Host.events onward.host⟩
  | native plain effects onward =>
      exact ⟨_, effects, onward.board, congrArg Host.events onward.host⟩
  | delay line plain effects => exact ⟨_, effects, rfl, rfl⟩
  | _ => exact ⟨state.world, .refl, rfl, rfl⟩

namespace State

/-- A step announces what it changes. -/
theorem accounted_step (accounted : state.world.Accounted past) :
    state.step.world.Accounted past := by
  obtain ⟨world, effects, sameBoard, sameEvents⟩ := state.transition_step.effects
  obtain ⟨told, events, announced⟩ := effects.accounted accounted
  exact ⟨told, sameEvents ▸ events, sameBoard ▸ announced⟩

/-- Steps announce what they change. -/
theorem accounted_advance
    (accounted : state.world.Accounted past)
    (steps : Nat) :
    (state.advance steps).world.Accounted past := by
  induction steps generalizing state with
  | zero => exact accounted
  | succ steps inductionHypothesis =>
      unfold advance
      split
      · exact accounted
      · exact inductionHypothesis (accounted_step accounted)

end State

end Machine

namespace Run

/-- The board with which a run goes on when it is polled next. -/
def board?
    (config : Config)
    (run : Run) :
    Option Board :=
  match run.phase with
  | .fresh _ => some (.create config.seed config.defaultOrder)
  | .suspended state => some state.world.board
  | .ended _ => none
  | .lost => none

/-- Since some past events, the host has been told of a board; it is the board of the run. -/
def Accounted
    (config : Config)
    (run : Run)
    (past : List Event)
    (events : Array Event) :
    Prop :=
  ∃ told board,
    events.toList = past ++ told ∧
      board.Announced told ∧ ∀ own, run.board? config = some own → own = board

variable {config : Config} {run : Run} {past : List Event} {host : Host}

/-- What a run has told its host since a reset is well formed. -/
theorem Accounted.traced
    {shown : List Event}
    {events : Array Event}
    (accounted : run.Accounted config (shown ++ [.reset]) events)
    (traced : Event.Traced shown) :
    Event.Traced events.toList := by
  obtain ⟨told, board, split, announced, own⟩ := accounted
  rw [split, List.append_assoc, List.singleton_append]
  exact traced.append_reset announced.wellFormed announced.noReset

/-- A run that is settled keeps its account. -/
theorem accounted_settle
    {state : Machine.State}
    (run : Run)
    (accounted : state.world.Accounted past) :
    (run.settle state).2.1.Accounted config past (run.settle state).2.2.events := by
  obtain ⟨told, events, announced⟩ := accounted
  obtain ⟨shownEvents, shownClicks⟩ := run.settle_shown state
  refine ⟨told, state.world.board, by rw [shownEvents, events], announced, ?_⟩
  intro own isOwn
  unfold board? at isOwn
  split at isOwn
  · next fresh => exact (settle_not_fresh run state _ fresh).elim
  · next kept suspended =>
      obtain ⟨resting, rfl⟩ := settle_suspended suspended
      exact (Option.some.inj isOwn).symm
  · contradiction
  · contradiction

theorem accounted_resume
    {state : Machine.State}
    (accounted : run.Accounted config past host.events)
    (resumed : run.resume? config host = some state) :
    state.world.Accounted past := by
  obtain ⟨told, board, events, announced, own⟩ := accounted
  rcases resume?_cases resumed with
      ⟨source, program, log, fresh, rfl⟩ | ⟨kept, suspended, rfl⟩
  · obtain rfl : Board.create config.seed config.defaultOrder = board :=
      own _ (by rw [board?, fresh])
    exact ⟨told, events, announced⟩
  · obtain rfl : kept.world.board = board := own _ (by rw [board?, suspended])
    exact ⟨told, events, announced⟩

/-- A poll announces what it changes. -/
theorem accounted_poll (accounted : run.Accounted config past host.events) :
    (run.poll config host).2.1.Accounted config past (run.poll config host).2.2.events := by
  cases resumed : run.resume? config host with
  | none =>
      obtain ⟨result, phase, log, polled, notPending, notResting, notFresh⟩ :=
        poll_of_no_resume resumed
      obtain ⟨told, board, events, announced, own⟩ := accounted
      rw [polled]
      refine ⟨told, board, events, announced, ?_⟩
      intro other isOwn
      unfold board? at isOwn
      split at isOwn
      · next fresh => exact (notFresh _ fresh).elim
      · next suspended => exact (notResting _ suspended).elim
      · contradiction
      · contradiction
  | some state =>
      rw [poll_of_resume resumed]
      have began := accounted_resume accounted resumed
      exact accounted_settle run (Machine.State.accounted_advance began _)

end Run

namespace Simulator

variable {simulator : Simulator} {run : Run} {past : List Event}

/-- Polls announce what they change. -/
theorem accounted_pollUpTo
    (accounted : run.Accounted simulator.config past simulator.events)
    (times : Nat) :
    (pollUpTo times simulator run).run.Accounted simulator.config past
      (pollUpTo times simulator run).simulator.events := by
  refine (pollUpTo_keeps
    (fun polled run =>
      polled.config = simulator.config ∧
        run.Accounted simulator.config past polled.events)
    ?_ ⟨rfl, accounted⟩ times).2
  rintro polled run ⟨sameConfig, kept⟩
  refine ⟨sameConfig, ?_⟩
  rw [← sameConfig] at kept ⊢
  exact Run.accounted_poll kept

end Simulator

/-- Whether a command starts a run under a name. -/
def Command.starts
    (name : String) :
    Command → Bool
  | .start started _ => started = name
  | _ => false

/-- How many runs have been started since a name was last given to one. -/
def startsSince
    (name : String)
    (commands : List Command) :
    Nat :=
  startCount (commands.reverse.takeWhile fun command => !command.starts name)

/-- A start of the run begins the count anew, and one of another run adds to it. -/
theorem startsSince_concat_start
    (name started source : String)
    (commands : List Command) :
    startsSince name (commands ++ [.start started source]) =
      if started = name then 0 else startsSince name commands + 1 := by
  unfold startsSince
  rw [List.reverse_concat, List.takeWhile_cons]
  by_cases same : started = name
  · simp [same, Command.starts, startCount]
  · have counted : (!Command.starts name (.start started source)) = true := by
      simp [Command.starts, same]
    rw [if_pos counted, if_neg same]
    exact List.countP_cons_of_pos rfl

/-- Only starts are counted. -/
theorem startsSince_concat_other
    {command : Command}
    (name : String)
    (commands : List Command)
    (notStart : command.isStart = false) :
    startsSince name (commands ++ [command]) = startsSince name commands := by
  unfold startsSince
  rw [List.reverse_concat, List.takeWhile_cons]
  cases command with
  | start => contradiction
  | poll | press | drop => rfl

/--
No run is polled just when a whole round of generations has been started since its own
start, which would make it current again.
-/
def WithinRound (commands : List Command) : Prop :=
  ∀ earlier name times later,
    commands = earlier ++ .poll name times :: later →
    startsSince name earlier % UInt64.size = 0 →
    startsSince name earlier = 0

namespace WithinRound

/-- Runs that are within a round have always been so. -/
theorem of_append
    {earlier later : List Command}
    (within : WithinRound (earlier ++ later)) :
    WithinRound earlier := by
  intro before name times after split
  exact within before name times (after ++ later) (by rw [split]; simp)

/-- A history with fewer starts than there are generations stays within a round. -/
theorem of_startCount_lt
    {commands : List Command}
    (few : startCount commands < UInt64.size) :
    WithinRound commands := by
  intro earlier name times later split round
  have within : startsSince name earlier ≤ startCount commands := by
    rw [split]
    unfold startsSince startCount
    rw [List.countP_append]
    have taken :
        (earlier.reverse.takeWhile fun command => !command.starts name).countP
            Command.isStart ≤
          earlier.reverse.countP Command.isStart :=
      (List.takeWhile_sublist _).countP_le
    rw [List.countP_reverse] at taken
    omega
  rwa [Nat.mod_eq_of_lt (by omega)] at round

end WithinRound

namespace Session

variable {session : Session} {commands : List Command} {name : String} {run : Run}

/-- What is known of a run that a session keeps under a name after a history. -/
structure Keeps
    (session : Session)
    (commands : List Command)
    (name : String)
    (run : Run) :
    Prop where
  restable : run.IsRestable
  born :
    run.generation + UInt64.ofNat (startsSince name commands) =
      session.simulator.generation
  onlyLatest :
    startsSince name commands = 0 → ∀ other, startsSince other commands = 0 → other = name
  accounted :
    startsSince name commands = 0 →
    ∃ shown,
      Event.Traced shown ∧
        run.Accounted session.simulator.config (shown ++ [.reset]) session.simulator.events

/-- After a history, the events are well formed and the latest run accounts for them. -/
structure Accounted
    (session : Session)
    (commands : List Command) :
    Prop where
  traced : Event.Traced session.simulator.events.toList
  keeps : ∀ name run, session.run? name = some run → session.Keeps commands name run

namespace Keeps

/-- A start makes the runs under other names older. -/
theorem start
    {started source : String}
    (keeps : session.Keeps commands name run)
    (other : started ≠ name) :
    (session.perform (.start started source)).2.Keeps
      (commands ++ [.start started source]) name run := by
  have older :
      startsSince name (commands ++ [.start started source]) =
        startsSince name commands + 1 := by
    rw [startsSince_concat_start, if_neg other]
  refine ⟨keeps.restable, ?_, ?_, ?_⟩
  · rw [older, UInt64.ofNat_add, ← UInt64.add_assoc, keeps.born]
    rfl
  · intro latest
    omega
  · intro latest
    omega

/-- A command that is no start and shows nothing keeps what is known of the runs. -/
theorem quiet
    {command : Command}
    {next : Session}
    (keeps : session.Keeps commands name run)
    (notStart : command.isStart = false)
    (sameConfig : next.simulator.config = session.simulator.config)
    (sameGeneration : next.simulator.generation = session.simulator.generation)
    (sameEvents : next.simulator.events = session.simulator.events) :
    next.Keeps (commands ++ [command]) name run := by
  refine ⟨keeps.restable, ?_, ?_, ?_⟩
  · rw [startsSince_concat_other name commands notStart, sameGeneration]
    exact keeps.born
  · intro latest other otherLatest
    rw [startsSince_concat_other _ commands notStart] at latest otherLatest
    exact keeps.onlyLatest latest other otherLatest
  · intro latest
    rw [startsSince_concat_other name commands notStart] at latest
    rw [sameConfig, sameEvents]
    exact keeps.accounted latest

/-- A run that is not the latest has become stale. -/
theorem stale
    (keeps : session.Keeps commands name run)
    (within :
      startsSince name commands % UInt64.size = 0 → startsSince name commands = 0)
    (older : startsSince name commands ≠ 0) :
    session.simulator.generation ≠ run.generation := by
  intro same
  rw [← keeps.born] at same
  exact older (within ((generation_add_eq_iff _ _).mp same))

section Poll

variable {times : Nat}

/-- The events stay well formed when a run is polled. -/
theorem traced_pollUpTo
    (keeps : session.Keeps commands name run)
    (traced : Event.Traced session.simulator.events.toList)
    (within :
      startsSince name commands % UInt64.size = 0 → startsSince name commands = 0) :
    Event.Traced (Simulator.pollUpTo times session.simulator run).simulator.events.toList := by
  by_cases latest : startsSince name commands = 0
  · obtain ⟨shown, tracedBefore, accounted⟩ := keeps.accounted latest
    exact (Simulator.accounted_pollUpTo accounted times).traced tracedBefore
  · have superseded := keeps.stale within latest
    rw [(Simulator.pollUpTo_of_stale keeps.restable superseded times).1]
    exact traced

/-- The run that is polled still accounts for the events. -/
theorem pollUpTo
    {next : Session}
    (keeps : session.Keeps commands name run)
    (polled : next.simulator = (Simulator.pollUpTo times session.simulator run).simulator) :
    next.Keeps (commands ++ [.poll name times]) name
      (Simulator.pollUpTo times session.simulator run).run := by
  have sameStarts (other : String) :
      startsSince other (commands ++ [.poll name times]) = startsSince other commands :=
    startsSince_concat_other other commands rfl
  obtain ⟨sameConfig, sameGeneration⟩ :=
    Simulator.pollUpTo_config_generation session.simulator run times
  refine ⟨Simulator.isRestable_pollUpTo keeps.restable times, ?_, ?_, ?_⟩
  · rw [sameStarts, polled, sameGeneration, Simulator.pollUpTo_generation]
    exact keeps.born
  · intro latest other otherLatest
    rw [sameStarts] at latest otherLatest
    exact keeps.onlyLatest latest other otherLatest
  · intro latest
    rw [sameStarts] at latest
    obtain ⟨shown, traced, accounted⟩ := keeps.accounted latest
    refine ⟨shown, traced, ?_⟩
    rw [polled, sameConfig]
    exact Simulator.accounted_pollUpTo accounted times

/-- A run that is not polled shows nothing, and is not the latest if events are shown. -/
theorem pollUpTo_other
    {other : String}
    {others : Run}
    {next : Session}
    (keeps : session.Keeps commands name run)
    (keepsOther : session.Keeps commands other others)
    (different : other ≠ name)
    (within :
      startsSince name commands % UInt64.size = 0 → startsSince name commands = 0)
    (polled : next.simulator = (Simulator.pollUpTo times session.simulator run).simulator) :
    next.Keeps (commands ++ [.poll name times]) other others := by
  obtain ⟨sameConfig, sameGeneration⟩ :=
    Simulator.pollUpTo_config_generation session.simulator run times
  rw [← polled] at sameConfig sameGeneration
  by_cases latest : startsSince name commands = 0
  · have older : startsSince other (commands ++ [.poll name times]) ≠ 0 := by
      rw [startsSince_concat_other other commands rfl]
      exact fun otherLatest => different (keeps.onlyLatest latest other otherLatest)
    refine ⟨keepsOther.restable, ?_, fun zero => (older zero).elim,
      fun zero => (older zero).elim⟩
    rw [startsSince_concat_other other commands rfl, sameGeneration]
    exact keepsOther.born
  · have superseded := keeps.stale within latest
    have noEvents := (Simulator.pollUpTo_of_stale keeps.restable superseded times).1
    rw [← polled] at noEvents
    exact keepsOther.quiet rfl sameConfig sameGeneration noEvents

end Poll

/-- A run that has just been started has told its host nothing. -/
theorem of_start
    (traced : Event.Traced session.simulator.events.toList)
    (started source : String) :
    (session.perform (.start started source)).2.Keeps
      (commands ++ [.start started source]) started
      (session.simulator.start source).1 := by
  have latest (other : String) :
      startsSince other (commands ++ [.start started source]) =
        if started = other then 0 else startsSince other commands + 1 :=
    startsSince_concat_start other started source commands
  refine ⟨fun _ suspended => Phase.noConfusion suspended, ?_, ?_, ?_⟩
  · rw [latest, if_pos rfl]
    exact UInt64.add_zero _
  · intro _ other otherLatest
    rw [latest] at otherLatest
    split at otherLatest
    · next same => exact same.symm
    · contradiction
  · intro _
    refine ⟨_, traced, [], .create session.simulator.config.seed
      session.simulator.config.defaultOrder, ?_, .create .., ?_⟩
    · rw [List.append_nil]
      exact Array.toList_push
    · exact fun own isOwn => (Option.some.inj isOwn).symm

end Keeps

namespace Accounted

/-- At first nothing has been announced. -/
theorem create (config : Config) : (Session.create config).Accounted [] where
  traced := .nil
  keeps name run kept := by contradiction

theorem start
    (accounted : session.Accounted commands)
    (started source : String) :
    (session.perform (.start started source)).2.Accounted
      (commands ++ [.start started source]) := by
  constructor
  · have shown :
        (session.perform (.start started source)).2.simulator.events.toList =
          session.simulator.events.toList ++ [.reset] :=
      Array.toList_push
    rw [shown]
    exact accounted.traced.append_reset .nil (by simp)
  · intro name run kept
    by_cases same : started = name
    · subst same
      cases run?_front.symm.trans kept
      exact .of_start accounted.traced started source
    · rw [run?_perform_other (by simpa [Command.name?] using same)] at kept
      exact (accounted.keeps name run kept).start same

/-- The events of a poll belong to the run that is current. -/
theorem poll
    {times : Nat}
    (accounted : session.Accounted commands)
    (within :
      startsSince name commands % UInt64.size = 0 → startsSince name commands = 0) :
    (session.perform (.poll name times)).2.Accounted (commands ++ [.poll name times]) := by
  cases known : session.run? name with
  | none =>
      rw [perform_poll_missing known]
      exact ⟨accounted.traced, fun other run kept =>
        (accounted.keeps other run kept).quiet rfl rfl rfl rfl⟩
  | some run =>
      have keeps := accounted.keeps name run known
      rw [perform_poll_known known]
      refine ⟨keeps.traced_pollUpTo accounted.traced within, ?_⟩
      intro other kept found
      by_cases same : other = name
      · subst same
        rw [run?_keptAfter] at found
        split at found
        · contradiction
        · cases found
          exact keeps.pollUpTo rfl
      · rw [run?_keptAfter_other _ same] at found
        exact keeps.pollUpTo_other (accounted.keeps other kept found) same within rfl

/-- Each command keeps the account. -/
theorem perform
    {command : Command}
    (accounted : session.Accounted commands)
    (within : WithinRound (commands ++ [command])) :
    (session.perform command).2.Accounted (commands ++ [command]) := by
  cases command with
  | start started source => exact accounted.start started source
  | poll name times => exact accounted.poll (within commands name times [] rfl)
  | press button =>
      obtain ⟨clicks, pressed⟩ := session.perform_press button
      rw [pressed]
      exact ⟨accounted.traced, fun name run kept =>
        (accounted.keeps name run kept).quiet rfl rfl rfl rfl⟩
  | drop dropped =>
      refine ⟨accounted.traced, fun name run kept => ?_⟩
      by_cases same : name = dropped
      · subst same
        cases run?_otherRuns_self.symm.trans kept
      · have before : session.run? name = some run := by
          rw [← run?_otherRuns_other same]
          exact kept
        exact (accounted.keeps name run before).quiet rfl rfl rfl rfl

/-- The account is kept over every history within a round. -/
theorem performAll
    (config : Config)
    (commands : List Command)
    (within : WithinRound commands) :
    ((Session.create config).performAll commands).Accounted commands := by
  induction commands using List.reverseRecOn with
  | nil => exact .create config
  | append_singleton earlier command inductionHypothesis =>
      rw [performAll_append]
      exact (inductionHypothesis within.of_append).perform within

end Accounted

/--
Between one reset and the next, the strips and buttons announced are numbered in order,
every strip has pixels, and every frame is shown on a strip announced since the reset
and has a color for each of its pixels.  Only a run that a whole round of generations
makes current again could show frames of strips announced before the reset.
-/
theorem events_well_formed
    (config : Config)
    (commands : List Command)
    (within : WithinRound commands)
    (before segment after : List Event)
    (split :
      ((create config).performAll commands).simulator.events.toList =
        before ++ .reset :: (segment ++ after))
    (betweenResets : .reset ∉ segment) :
    Event.WellFormed segment :=
  (Accounted.performAll config commands within).traced before segment after split
    betweenResets

/-- A run that has shown a frame is superseded by another, which announces its own strip. -/
theorem events_well_formed_of_two_runs :
    let commands : List Command :=
      [.start "old" "let s = createStrip(2, 1); s.show(); delay(5); s.show();",
        .poll "old" 1, .start "new" "createStrip(1, 3).show();", .poll "old" 1,
        .poll "new" 1]
    let segment : List Event := [.stripCreated 0 3 1, .frameShown 0 #[⟨0, 0, 0⟩]]
    WithinRound commands ∧
      ((create ⟨1, none, .grb, 1000⟩).performAll commands).simulator.events.toList =
        [.reset, .stripCreated 0 1 2, .frameShown 0 #[⟨0, 0, 0⟩, ⟨0, 0, 0⟩]] ++
          .reset :: (segment ++ []) ∧
        .reset ∉ segment ∧ Event.WellFormed segment := by
  intro commands segment
  have within : WithinRound commands := .of_startCount_lt (by decide)
  have split :
      ((create ⟨1, none, .grb, 1000⟩).performAll commands).simulator.events.toList =
        [.reset, .stripCreated 0 1 2, .frameShown 0 #[⟨0, 0, 0⟩, ⟨0, 0, 0⟩]] ++
          .reset :: (segment ++ []) := by
    decide +kernel
  have betweenResets : .reset ∉ segment := by decide
  exact ⟨within, split, betweenResets,
    events_well_formed _ commands within _ _ [] split betweenResets⟩

end Session

end LedSketch
