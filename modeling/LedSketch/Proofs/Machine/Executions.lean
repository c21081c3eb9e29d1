import LedSketch.Proofs.Machine.Floor
import LedSketch.Proofs.Machine.Trace

namespace LedSketch.Machine

/-!
# Executions

What a run does above some frames is an execution over a floor.  It goes on, with the hosts
that wake it, until the floor is given a result.

One execution paces another if each of its steps is some steps of the other, all of which
but the last change nothing that can be seen.  Then each of them comes to what the other
comes to.
-/

/-- The work over a floor is done, and its result is given to the floor. -/
structure State.IsCompleted
    (floor : List Frame)
    (state : State) :
    Prop where
  stack : state.stack = floor
  isResult : state.control.isResult = true

/-- What an execution over a floor comes to, with the hosts that wake it on the way. -/
inductive Comes (floor : List Frame) : State → List Host → State → Prop where
  | here (state : State) :
      Comes floor state [] state
  | step
      {state last : State}
      {hosts : List Host}
      (working : ¬ state.IsCompleted floor)
      (onward : Comes floor state.step hosts last) :
      Comes floor state hosts last
  | wake
      {state last : State}
      {hosts : List Host}
      (host : Host)
      (resting : state.control = .suspended)
      (onward : Comes floor (state.wake host) hosts last) :
      Comes floor state (host :: hosts) last

/-- An execution comes to the state that steps lead to, if none of them gives the floor a result. -/
theorem Comes.of_advance
    {floor : List Frame}
    {state : State}
    {steps : Nat}
    (working : ∀ visited ∈ State.visited steps state, ¬ visited.IsCompleted floor) :
    Comes floor state [] (state.advance steps) := by
  induction steps generalizing state with
  | zero => exact .here state
  | succ steps inductionHypothesis =>
      cases paused : state.paused with
      | true =>
          rw [(State.visited_of_paused paused (steps + 1)).2]
          exact .here state
      | false =>
          obtain ⟨first, onward⟩ := State.visited_of_running paused steps
          rw [first] at working
          obtain ⟨here, later⟩ := List.forall_mem_cons.mp working
          rw [onward]
          exact .step here (inductionHypothesis later)

section Floor

variable {floor : List Frame} {state last : State} {hosts : List Host}

theorem State.isCompleted_onFloor :
    (state.onFloor floor).IsCompleted floor ↔ state.IsCompleted [] :=
  ⟨fun completed => ⟨List.append_left_eq_self.mp completed.stack, completed.isResult⟩,
    fun completed => ⟨List.append_left_eq_self.mpr completed.stack, completed.isResult⟩⟩

/-- An execution that is not completed takes the steps that it takes over any floor. -/
theorem State.step_onFloor_of_working (working : ¬ state.IsCompleted []) :
    (state.onFloor floor).step = state.step.onFloor floor := by
  refine State.step_onFloor floor state ?_
  by_cases empty : state.stack = []
  · exact .inr (Bool.eq_false_iff.mpr fun isResult => working ⟨empty, isResult⟩)
  · exact .inl empty

theorem Comes.onFloor
    (floor : List Frame)
    (comes : Comes [] state hosts last) :
    Comes floor (state.onFloor floor) hosts (last.onFloor floor) := by
  induction comes with
  | here state => exact .here _
  | step working onward inductionHypothesis =>
      refine .step (fun completed => working (State.isCompleted_onFloor.mp completed)) ?_
      rw [State.step_onFloor_of_working working]
      exact inductionHypothesis
  | wake host resting onward inductionHypothesis => exact .wake host resting inductionHypothesis

theorem Comes.of_onFloor
    (comes : Comes floor (state.onFloor floor) hosts last) :
    ∃ inner, last = inner.onFloor floor ∧ Comes [] state hosts inner := by
  generalize begun : state.onFloor floor = started at comes
  induction comes generalizing state with
  | here started => exact ⟨state, begun.symm, .here state⟩
  | step working onward inductionHypothesis =>
      subst begun
      have stillWorking : ¬ state.IsCompleted [] :=
        fun completed => working (State.isCompleted_onFloor.mpr completed)
      obtain ⟨inner, rfl, comes⟩ :=
        inductionHypothesis (State.step_onFloor_of_working stillWorking).symm
      exact ⟨inner, rfl, .step stillWorking comes⟩
  | wake host resting onward inductionHypothesis =>
      subst begun
      have woken : (state.wake host).onFloor floor = (state.onFloor floor).wake host := rfl
      obtain ⟨inner, rfl, comes⟩ := inductionHypothesis woken
      exact ⟨inner, rfl, .wake host resting comes⟩

end Floor

/-- An execution is neither completed nor at rest. -/
structure State.IsBusy (state : State) : Prop where
  stack : state.stack ≠ []
  awake : state.control ≠ .suspended

/-- Steps of which all but the last change nothing that can be seen. -/
inductive Glides : State → State → Prop where
  | last (state : State) :
      Glides state state.step
  | onward
      {state final : State}
      (awake : state.control ≠ .suspended)
      (busy : state.step.IsBusy)
      (world : state.step.world = state.world)
      (rest : Glides state.step final) :
      Glides state final

/-- An execution that paces another one, and is like it all the time. -/
structure Paces
    (related alike : State → State → Prop) :
    Prop where
  always :
    ∀ {state other : State}, related state other → alike state other
  /-- While the other execution glides, it stays like this one. -/
  meanwhile :
    ∀ {state other gliding : State},
      related state other →
      ¬ state.IsCompleted [] →
      state.control ≠ .suspended →
      gliding.IsBusy →
      gliding.world = other.world →
      alike state gliding
  completed :
    ∀ {state other : State},
      related state other → (other.IsCompleted [] ↔ state.IsCompleted [])
  suspended :
    ∀ {state other : State},
      related state other → (other.control = .suspended ↔ state.control = .suspended)
  step :
    ∀ {state other : State},
      related state other →
      ¬ state.IsCompleted [] →
      ∃ after, Glides other after ∧ related state.step after
  wake :
    ∀ {state other : State},
      related state other →
      state.control = .suspended →
      ∀ host, related (state.wake host) (other.wake host)

/-- The state with a control and with frames of its own. -/
def State.placed
    (state : State)
    (control : Control)
    (stack : List Frame) :
    State :=
  { state with control, stack }

/-- Frames below a state without frames are all that it has. -/
theorem State.onFloor_of_alone
    {state : State}
    (alone : state.stack = [])
    (floor : List Frame) :
    state.onFloor floor = state.placed state.control floor := by
  unfold onFloor placed
  rw [alone]
  rfl

/-- A state without frames has its own control and no frames. -/
theorem State.placed_of_alone
    (state : State)
    (alone : state.stack = []) :
    state.placed state.control [] = state := by
  unfold placed
  rw [← alone]

/-- A run that is not paused does not wait for a poll. -/
theorem State.awake_of_running
    {state : State}
    (running : state.paused = false) :
    state.control ≠ .suspended := by
  intro resting
  rw [paused, resting] at running
  contradiction

/-- A step that changes nothing which can be seen, and leaves something to do. -/
structure State.Slips (state next : State) : Prop where
  stepped : state.step = next
  running : state.paused = false
  stillRunning : next.paused = false
  frames : next.stack.isEmpty = false
  world : next.world = state.world

/-- A glide may begin with such a step. -/
theorem Glides.slip
    {state next final : State}
    (slips : state.Slips next)
    (rest : Glides next final) :
    Glides state final := by
  obtain ⟨rfl, running, stillRunning, frames, world⟩ := slips
  exact .onward (State.awake_of_running running)
    ⟨List.isEmpty_eq_false_iff.mp frames, State.awake_of_running stillRunning⟩ world rest

namespace Paces

variable {related alike : State → State → Prop} {state other last gliding after : State}
variable {hosts : List Host}

theorem comes_of_glides
    (working : ¬ other.IsCompleted [])
    (glides : Glides other after)
    (comes : Comes [] after hosts last) :
    Comes [] other hosts last := by
  induction glides with
  | last other => exact .step working comes
  | onward awake busy world rest inductionHypothesis =>
      exact .step working
        (inductionHypothesis (fun completed => busy.stack completed.stack) comes)

/-- What the one execution comes to, the other one comes to. -/
theorem forth
    (paces : Paces related alike)
    (pair : related state other)
    (comes : Comes [] state hosts last) :
    ∃ final, Comes [] other hosts final ∧ alike last final := by
  induction comes generalizing other with
  | here state => exact ⟨other, .here other, paces.always pair⟩
  | step working onward inductionHypothesis =>
      obtain ⟨after, glides, onwardPair⟩ := paces.step pair working
      obtain ⟨final, comes, isAlike⟩ := inductionHypothesis onwardPair
      have otherWorking := mt (paces.completed pair).mp working
      exact ⟨final, comes_of_glides otherWorking glides comes, isAlike⟩
  | wake host resting onward inductionHypothesis =>
      obtain ⟨final, comes, isAlike⟩ := inductionHypothesis (paces.wake pair resting host)
      exact ⟨final, .wake host ((paces.suspended pair).mpr resting) comes, isAlike⟩

/-- The other execution is at a state that is related, or it glides to one. -/
inductive Near
    (related : State → State → Prop)
    (state gliding : State) :
    Prop where
  | here (pair : related state gliding) :
      Near related state gliding
  | gliding
      {other after : State}
      (pair : related state other)
      (working : ¬ state.IsCompleted [])
      (awake : state.control ≠ .suspended)
      (busy : gliding.IsBusy)
      (world : gliding.world = other.world)
      (glides : Glides gliding after)
      (onward : related state.step after) :
      Near related state gliding

/-- A glide goes on, or it is over and the other execution has made its step as well. -/
theorem Near.of_glides
    (pair : related state other)
    (working : ¬ state.IsCompleted [])
    (awake : state.control ≠ .suspended)
    (world : gliding.world = other.world)
    (glides : Glides gliding after)
    (onward : related state.step after) :
    Near related state gliding.step ∨ related state.step gliding.step := by
  cases glides with
  | last => exact .inr onward
  | onward _ busy sameWorld rest =>
      exact .inl (.gliding pair working awake busy (sameWorld.trans world) rest onward)

/-- What the other execution comes to, this one comes to. -/
theorem back
    (paces : Paces related alike)
    (near : Near related state gliding)
    (comes : Comes [] gliding hosts last) :
    ∃ final, Comes [] state hosts final ∧ alike final last := by
  induction comes generalizing state with
  | here gliding =>
      refine ⟨state, .here state, ?_⟩
      cases near with
      | here pair => exact paces.always pair
      | gliding pair working awake busy world => exact paces.meanwhile pair working awake busy world
  | @step gliding last hosts otherWorking onward inductionHypothesis =>
      have stepped
          (working : ¬ state.IsCompleted [])
          (next : Near related state gliding.step ∨ related state.step gliding.step) :
          ∃ final, Comes [] state hosts final ∧ alike final last := by
        obtain near | pair := next
        · exact inductionHypothesis near
        · obtain ⟨final, comes, isAlike⟩ := inductionHypothesis (.here pair)
          exact ⟨final, .step working comes, isAlike⟩
      cases near with
      | here pair =>
          have working := mt (paces.completed pair).mpr otherWorking
          obtain ⟨after, glides, onwardPair⟩ := paces.step pair working
          cases glides with
          | last => exact stepped working (.inr onwardPair)
          | onward awake busy world rest =>
              have stateAwake := mt (paces.suspended pair).mpr awake
              exact stepped working
                (.inl (.gliding pair working stateAwake busy world rest onwardPair))
      | gliding pair working awake busy world glides onwardPair =>
          exact stepped working (Near.of_glides pair working awake world glides onwardPair)
  | wake host resting onward inductionHypothesis =>
      cases near with
      | here pair =>
          have stateResting := (paces.suspended pair).mp resting
          obtain ⟨final, comes, isAlike⟩ :=
            inductionHypothesis (.here (paces.wake pair stateResting host))
          exact ⟨final, .wake host stateResting comes, isAlike⟩
      | gliding _ _ _ busy => exact (busy.awake resting).elim

end Paces

end LedSketch.Machine
