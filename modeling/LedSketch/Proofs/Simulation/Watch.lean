import LedSketch.Proofs.Machine.Trace
import LedSketch.Proofs.Simulation.Poll

namespace LedSketch

/-!
# Watched runs

A watch follows one run from its start, through presses and polls, and keeps the presses
that were accepted and the states in which the run has made its steps.  Presses are
handled in order, once, and one at a time.
-/

/-- What happens to a current run. -/
inductive Input where
  | press (button : Nat)
  | poll

/-- The states in which a run makes its steps during a poll. -/
def Run.visited
    (config : Config)
    (run : Run)
    (host : Host) :
    List Machine.State :=
  match run.resume? config host with
  | some state => Machine.State.visited (config.stepBudget + state.stack.length + 2) state
  | none => []

/-- A current run with what has been seen of it. -/
structure Watch where
  simulator : Simulator
  run : Run
  /-- The buttons of the presses accepted since the start, oldest first. -/
  accepted : List Nat
  states : List Machine.State

namespace Watch

/-- Watch a run from its start. -/
def start
    (simulator : Simulator)
    (source : String) :
    Watch :=
  let (run, simulator) := simulator.start source
  ⟨simulator, run, [], []⟩

/-- Watch what an input does. -/
def next (watch : Watch) : Input → Watch
  | .press button =>
      match watch.simulator.press? button with
      | some simulator => { watch with simulator, accepted := watch.accepted ++ [button] }
      | none => watch
  | .poll =>
      let (_, run, simulator) := watch.simulator.poll watch.run
      { watch with
        simulator
        run
        states :=
          watch.states ++
            watch.run.visited watch.simulator.config
              (watch.simulator.hostFor watch.run.generation) }

/-- Watch what several inputs do. -/
def follow (watch : Watch) : List Input → Watch
  | [] => watch
  | input :: later => (watch.next input).follow later

end Watch

open Machine (State Trace)

/-- How the phase of a run fits the states in which it has made its steps. -/
inductive Stage : Phase → List State → Prop where
  | unmoved
      {phase : Phase}
      (notResting : ∀ kept, phase ≠ .suspended kept) :
      Stage phase []
  | moved
      {phase : Phase}
      {first last : State}
      {states : List State}
      (balanced : first.Balanced)
      (trace : Trace first states last)
      (begun : ∀ source, phase ≠ .fresh source)
      (rests :
        ∀ kept, phase = .suspended kept →
          last.control = .suspended ∧ kept = last.attach .detached) :
      Stage phase states

namespace Stage

theorem of_stopped
    {before after : Phase}
    {states : List State}
    (stage : Stage before states)
    (notResting : ∀ kept, after ≠ .suspended kept)
    (begun : ∀ source, after ≠ .fresh source) :
    Stage after states := by
  cases stage with
  | unmoved => exact .unmoved notResting
  | moved balanced trace =>
      exact .moved balanced trace begun fun kept rests => (notResting kept rests).elim

/-- The first poll makes its steps from the start of the script. -/
theorem of_begin
    {source : String}
    {states : List State}
    {run : Run}
    (stage : Stage (.fresh source) states)
    (config : Config)
    (program : Script.Program)
    (host : Host)
    (steps : Nat) :
    Stage (run.settle ((State.begin config program host).advance steps)).2.1.phase
      (states ++ State.visited steps (.begin config program host)) := by
  cases stage with
  | unmoved =>
      have balanced : (State.begin config program host).Balanced := rfl
      exact .moved balanced (.of_advance _ steps) (Run.settle_not_fresh run _)
        fun kept rests => Run.settle_suspended rests
  | moved balanced trace begun => exact (begun source rfl).elim

/-- A later poll makes its steps from where the run rests. -/
theorem of_wake
    {kept : State}
    {states : List State}
    {run : Run}
    (stage : Stage (.suspended kept) states)
    (host : Host)
    (steps : Nat) :
    Stage (run.settle ((kept.wake host).advance steps)).2.1.phase
      (states ++ State.visited steps (kept.wake host)) := by
  cases stage with
  | unmoved notResting => exact (notResting kept rfl).elim
  | @moved first last states balanced trace begun rests =>
      obtain ⟨resting, rfl⟩ := rests kept rfl
      exact .moved balanced (trace.append (.wake host resting (.of_advance _ steps)))
        (Run.settle_not_fresh run _) fun kept rests => Run.settle_suspended rests

theorem balanced
    {phase : Phase}
    {states : List State}
    {state : State}
    (stage : Stage phase states)
    (reached : state ∈ states ∨ phase = .suspended state) :
    state.Balanced := by
  cases stage with
  | unmoved notResting =>
      rcases reached with member | resting
      · contradiction
      · exact (notResting state resting).elim
  | moved balanced trace begun rests =>
      obtain ⟨all, last⟩ := trace.balanced balanced
      rcases reached with member | resting
      · exact all state member
      · obtain ⟨control, rfl⟩ := rests state resting
        exact last

theorem trace_between
    {phase : Phase}
    {states earlier between later : List State}
    {first last : State}
    (stage : Stage phase states)
    (whole : states = earlier ++ first :: (between ++ last :: later)) :
    Trace first (first :: between) last := by
  cases stage with
  | unmoved => simp at whole
  | moved balanced trace =>
      rw [whole] at trace
      obtain ⟨before, onward⟩ := trace.split
      rw [← List.cons_append] at onward
      exact onward.split.1

end Stage

namespace Watch

/-- What holds of a watched run at all times. -/
structure Sound (watch : Watch) : Prop where
  current : watch.run.generation = watch.simulator.generation
  order :
    watch.accepted =
      (watch.states.filterMap State.taken?).map Prod.fst ++ watch.simulator.clicks.waiting
  live : ∀ state ∈ watch.states, state.live = true
  stage : Stage watch.run.phase watch.states

namespace Sound

variable {watch : Watch}

theorem start
    (simulator : Simulator)
    (source : String) :
    (start simulator source).Sound where
  current := rfl
  order := rfl
  live := by simp [Watch.start]
  stage := .unmoved fun _ => Phase.noConfusion

theorem press
    (sound : watch.Sound)
    (button : Nat) :
    (watch.next (.press button)).Sound := by
  unfold next Simulator.press?
  dsimp only
  cases pressed : watch.simulator.clicks.press? button with
  | none => exact sound
  | some clicks =>
      have order :
          watch.accepted ++ [button] =
            (watch.states.filterMap State.taken?).map Prod.fst ++ clicks.waiting := by
        rw [ClickQueue.waiting_press? pressed, sound.order, List.append_assoc]
      exact ⟨sound.current, order, sound.live, sound.stage⟩

theorem poll (sound : watch.Sound) : (watch.next .poll).Sound := by
  have liveHost : (watch.simulator.hostFor watch.run.generation).live = true :=
    decide_eq_true sound.current.symm
  have current : (watch.next .poll).run.generation = (watch.next .poll).simulator.generation :=
    Simulator.poll_generation.trans sound.current
  -- Either the poll makes steps, and their states are added, or all stays as it is.
  cases resumed :
      watch.run.resume? watch.simulator.config
        (watch.simulator.hostFor watch.run.generation) with
  | none =>
      obtain ⟨result, phase, log, polled, notPending, notResting, begun⟩ :=
        Run.poll_of_no_resume resumed
      have sameStates : (watch.next .poll).states = watch.states := by
        change watch.states ++ Run.visited .. = _
        rw [Run.visited, resumed, List.append_nil]
      refine ⟨current, ?_, sameStates ▸ sound.live, ?_⟩
      · rw [sameStates]
        change watch.accepted = _ ++ (Run.poll ..).2.2.clicks.waiting
        rw [polled]
        exact sound.order
      · rw [sameStates]
        change Stage (Run.poll ..).2.1.phase _
        rw [polled]
        exact sound.stage.of_stopped notResting begun
  | some state =>
      have polled := Run.poll_of_resume resumed
      obtain ⟨shownEvents, shownClicks⟩ :=
        watch.run.settle_shown (state.goOn watch.simulator.config)
      have moreStates : (watch.next .poll).states = watch.states ++
          State.visited (watch.simulator.config.stepBudget + state.stack.length + 2) state := by
        change watch.states ++ Run.visited .. = _
        rw [Run.visited, resumed]
      have given :
          state.live = true ∧
            state.world.host.clicks.waiting = watch.simulator.clicks.waiting := by
        obtain ⟨source, program, log, phase, rfl⟩ | ⟨kept, phase, rfl⟩ :=
          Run.resume?_cases resumed
        · exact ⟨liveHost, rfl⟩
        · exact ⟨liveHost, rfl⟩
      obtain ⟨live, sameWaiting⟩ := given
      refine ⟨current, ?_, ?_, ?_⟩
      · rw [moreStates, List.filterMap_append, List.map_append, List.append_assoc]
        change watch.accepted = _ ++ (_ ++ (Run.poll ..).2.2.clicks.waiting)
        rw [polled, shownClicks, sound.order, ← sameWaiting]
        exact congrArg _ (State.waiting_advance state _)
      · rw [moreStates]
        exact List.forall_mem_append.mpr ⟨sound.live, State.live_of_visited live _⟩
      · rw [moreStates]
        change Stage (Run.poll ..).2.1.phase _
        rw [polled]
        have stage := sound.stage
        obtain ⟨source, program, log, phase, rfl⟩ | ⟨kept, phase, rfl⟩ :=
          Run.resume?_cases resumed
        · rw [phase] at stage
          exact stage.of_begin watch.simulator.config program _ _
        · rw [phase] at stage
          exact stage.of_wake _ _

theorem follow
    (sound : watch.Sound)
    (inputs : List Input) :
    (watch.follow inputs).Sound := by
  induction inputs generalizing watch with
  | nil => exact sound
  | cons input later inductionHypothesis =>
      cases input with
      | press button => exact inductionHypothesis (sound.press button)
      | poll => exact inductionHypothesis sound.poll

end Sound

/--
The presses that a run takes are the accepted ones in their order, of which the last may
still wait.  The handlers it begins are those that the buttons of these presses have
when the press is taken, one at a time, and what a handler has interrupted lies below it
until it has completed.
-/
theorem clicks_handled_in_order
    (simulator : Simulator)
    (source : String)
    (inputs : List Input) :
    let watch := (start simulator source).follow inputs
    let taken := watch.states.filterMap State.taken?
    watch.accepted = taken.map Prod.fst ++ watch.simulator.clicks.waiting ∧
      watch.states.filterMap State.invoked? = taken.filterMap Prod.snd ∧
      (∀ state, state ∈ watch.states ∨ watch.run.phase = .suspended state →
        state.handlers ≤ 1) ∧
      ∀ earlier first between last later above interrupted,
        watch.states = earlier ++ first :: (between ++ last :: later) →
        first.stack = above ++ .handlerCall :: interrupted →
        (∃ state ∈ first :: between, state.CompletesHandler interrupted) ∨
          ∃ stillAbove, last.stack = stillAbove ++ .handlerCall :: interrupted := by
  intro watch taken
  have sound : watch.Sound := (Sound.start simulator source).follow inputs
  refine ⟨sound.order, State.filterMap_invoked? sound.live, ?_, ?_⟩
  · intro state reached
    exact (sound.stage.balanced reached).handlers_le
  · intro earlier first between last later above interrupted whole inProgress
    exact (sound.stage.trace_between whole).interrupted inProgress

/-- Two buttons with a handler each are pressed, the second one first. -/
theorem clicks_handled_in_order_of_two_buttons :
    let watch :=
      (start (.create ⟨1, none, .grb, 1000⟩)
        "createButton(1).onClick(millis);createButton(2).onClick(micros);delay(1);delay(1);").follow
          [.poll, .press 1, .press 0, .poll]
    let taken := watch.states.filterMap State.taken?
    watch.accepted = [1, 0] ∧
      watch.accepted = taken.map Prod.fst ++ watch.simulator.clicks.waiting ∧
      watch.simulator.clicks.waiting = [] ∧
      (watch.states.filterMap State.invoked?).map Script.Heap.displayAtom =
        ["function micros", "function millis"] := by
  obtain ⟨inOrder, invoked, -, -⟩ :=
    clicks_handled_in_order (.create ⟨1, none, .grb, 1000⟩)
      "createButton(1).onClick(millis);createButton(2).onClick(micros);delay(1);delay(1);"
      [.poll, .press 1, .press 0, .poll]
  dsimp only
  refine ⟨by decide +kernel, inOrder, by decide +kernel, ?_⟩
  rw [invoked]
  decide +kernel

end Watch

end LedSketch
