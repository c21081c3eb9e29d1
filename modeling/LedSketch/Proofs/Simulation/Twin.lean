import LedSketch.Proofs.Machine.Past
import LedSketch.Proofs.Simulation.Poll

namespace LedSketch

/-!
# Twin runs

Two current runs that have come equally far go on alike when they are polled, each by
its own simulator: neither what the simulators were told before nor the generations
of the runs make a difference.
-/

namespace Machine.State

theorem after_advance
    (state : State)
    (past : Past)
    (steps : Nat) :
    (state.after past).advance steps = (state.advance steps).after past := by
  induction steps generalizing state with
  | zero => rfl
  | succ steps inductionHypothesis =>
      have samePaused : (state.after past).paused = state.paused := rfl
      unfold advance
      rw [samePaused]
      split
      · rfl
      · rw [after_step]
        exact inductionHypothesis state.step

theorem after_goOn
    (state : State)
    (past : Past)
    (config : Config) :
    (state.after past).goOn config = (state.goOn config).after past :=
  after_advance state past _

end Machine.State

namespace Run

/-- A run that rests forgets what its host was told. -/
theorem settle_after
    (run : Run)
    (state : Machine.State)
    (past : Past) :
    run.settle (state.after past) =
      ((run.settle state).1, (run.settle state).2.1, (run.settle state).2.2.after past) := by
  have sameResult : (state.after past).pollResult = state.pollResult := rfl
  unfold settle
  dsimp only
  rw [sameResult]
  cases state.pollResult with
  | pending => rfl
  | overBudget => rfl
  | ready outcome =>
      have recorded := Host.after_record state.world.host past
        (.ended run.generation.toNat outcome)
      exact congrArg (fun host => (_, _, host)) recorded

theorem recordLowering_after
    (host : Host)
    (past : Past)
    (applied : List Sketch.Application)
    (notes : List Sketch.Note) :
    recordLowering (host.after past) applied notes =
      (recordLowering host applied notes).after past := by
  simp [recordLowering, Host.after]

theorem begin_after
    (config : Config)
    (run : Run)
    (source : String)
    (host : Host)
    (past : Past) :
    run.begin config source (host.after past) =
      ((run.begin config source host).1, (run.begin config source host).2.1,
        (run.begin config source host).2.2.after past) := by
  unfold begin
  dsimp only
  rw [recordLowering_after]
  generalize recordLowering host _ _ = recorded
  split
  · next error failed =>
      rw [Host.after_record]
  · next program parsed =>
      rw [← settle_after, ← Machine.State.after_goOn]
      rfl

/-- A poll does the same whatever its host was told before. -/
theorem poll_after
    (config : Config)
    (run : Run)
    (host : Host)
    (past : Past) :
    run.poll config (host.after past) =
      ((run.poll config host).1, (run.poll config host).2.1,
        (run.poll config host).2.2.after past) := by
  unfold poll
  cases run.phase with
  | fresh source => exact begin_after ..
  | suspended state =>
      dsimp only
      rw [← settle_after, ← Machine.State.after_goOn]
      rfl
  | ended outcome => rfl
  | lost => rfl

/-- The generation of a run shows only in the entry that its end makes. -/
theorem settle_withGeneration
    (run : Run)
    (generation : UInt64)
    (state : Machine.State) :
    ∃ log,
      { run with generation }.settle state =
        ((run.settle state).1, { (run.settle state).2.1 with generation },
          { (run.settle state).2.2 with log }) := by
  unfold settle
  dsimp only
  cases state.pollResult with
  | pending => exact ⟨_, rfl⟩
  | overBudget => exact ⟨_, rfl⟩
  | ready outcome => exact ⟨_, rfl⟩

theorem poll_withGeneration
    (config : Config)
    (run : Run)
    (generation : UInt64)
    (host : Host) :
    ∃ log,
      { run with generation }.poll config host =
        ((run.poll config host).1, { (run.poll config host).2.1 with generation },
          { (run.poll config host).2.2 with log }) := by
  obtain ⟨birth, phase⟩ := run
  unfold poll
  cases phase with
  | fresh source =>
      dsimp only
      unfold begin
      dsimp only
      generalize recordLowering host _ _ = recorded
      split
      · exact ⟨_, rfl⟩
      · exact settle_withGeneration ..
  | suspended state => exact settle_withGeneration ..
  | ended outcome => exact ⟨_, rfl⟩
  | lost => exact ⟨_, rfl⟩

/-- Polls of runs that have come equally far, by hosts that share the same, do the same. -/
theorem poll_alike
    {first second : Run}
    {left right : Host}
    (config : Config)
    (samePhase : first.phase = second.phase)
    (sameLive : left.live = right.live)
    (sameClicks : left.clicks = right.clicks) :
    (first.poll config left).1 = (second.poll config right).1 ∧
      (first.poll config left).2.1.phase = (second.poll config right).2.1.phase ∧
      (first.poll config left).2.2.clicks = (second.poll config right).2.2.clicks ∧
      ∃ shown,
        (first.poll config left).2.2.events = left.events ++ shown ∧
          (second.poll config right).2.2.events = right.events ++ shown := by
  -- Both hosts are one host that was told nothing, with different pasts.
  let bare : Host := ⟨left.live, left.clicks, #[], #[]⟩
  have leftPast : left = bare.after ⟨left.events, left.log⟩ := by simp [bare, Host.after]
  have rightPast : right = bare.after ⟨right.events, right.log⟩ := by
    simp [bare, Host.after, sameLive, sameClicks]
  have twin : second = { first with generation := second.generation } := by
    rw [samePhase]
  obtain ⟨log, polled⟩ := first.poll_withGeneration config second.generation bare
  rw [← twin] at polled
  have leftPoll := first.poll_after config bare ⟨left.events, left.log⟩
  have rightPoll := second.poll_after config bare ⟨right.events, right.log⟩
  rw [← leftPast] at leftPoll
  rw [← rightPast, polled] at rightPoll
  rw [leftPoll, rightPoll]
  exact ⟨rfl, rfl, rfl, _, rfl, rfl⟩

end Run

namespace Simulator

/-- Current runs that have come equally far, each with its simulator. -/
structure Twins
    (left right : Simulator)
    (first second : Run) :
    Prop where
  config : left.config = right.config
  clicks : left.clicks = right.clicks
  phase : first.phase = second.phase
  leftCurrent : first.generation = left.generation
  rightCurrent : second.generation = right.generation

namespace Twins

variable {left right : Simulator} {first second : Run}

/-- Twins are still twins after a poll, which answers and shows the same. -/
theorem poll (twins : Twins left right first second) :
    (left.poll first).1 = (right.poll second).1 ∧
      Twins (left.poll first).2.2 (right.poll second).2.2
        (left.poll first).2.1 (right.poll second).2.1 ∧
      ∃ shown,
        (left.poll first).2.2.events = left.events ++ shown ∧
          (right.poll second).2.2.events = right.events ++ shown := by
  have sameLive :
      (left.hostFor first.generation).live = (right.hostFor second.generation).live := by
    simp [hostFor, twins.leftCurrent, twins.rightCurrent]
  have alike := Run.poll_alike left.config twins.phase sameLive twins.clicks
  obtain ⟨sameResult, samePhase, sameClicks, shown⟩ := alike
  have polled : right.poll second =
      ((second.poll left.config (right.hostFor second.generation)).1,
        (second.poll left.config (right.hostFor second.generation)).2.1,
        right.takeBack (second.poll left.config (right.hostFor second.generation)).2.2) := by
    rw [twins.config]
    rfl
  rw [polled]
  exact ⟨sameResult,
    ⟨twins.config, sameClicks, samePhase, poll_generation.trans twins.leftCurrent,
      (Run.poll_generation ..).trans twins.rightCurrent⟩, shown⟩

theorem pollUpTo
    (twins : Twins left right first second)
    (times : Nat) :
    (pollUpTo times left first).result = (pollUpTo times right second).result ∧
      (pollUpTo times left first).polls = (pollUpTo times right second).polls ∧
      Twins (pollUpTo times left first).simulator (pollUpTo times right second).simulator
        (pollUpTo times left first).run (pollUpTo times right second).run ∧
      ∃ shown,
        (pollUpTo times left first).simulator.events = left.events ++ shown ∧
          (pollUpTo times right second).simulator.events = right.events ++ shown := by
  induction times generalizing left right first second with
  | zero => exact ⟨rfl, rfl, twins, #[], by simp [Simulator.pollUpTo]⟩
  | succ times inductionHypothesis =>
      obtain ⟨sameResult, stillTwins, shown, leftShown, rightShown⟩ := twins.poll
      by_cases pending : (left.poll first).1 = .pending
      · obtain ⟨laterResult, laterPolls, laterTwins, later, leftLater, rightLater⟩ :=
          inductionHypothesis stillTwins
        rw [pollUpTo_of_pending pending, pollUpTo_of_pending (sameResult ▸ pending)]
        refine ⟨laterResult, congrArg (· + 1) laterPolls, laterTwins, shown ++ later, ?_, ?_⟩
        · rw [← Array.append_assoc, ← leftShown]
          exact leftLater
        · rw [← Array.append_assoc, ← rightShown]
          exact rightLater
      · rw [pollUpTo_of_not_pending pending, pollUpTo_of_not_pending (sameResult ▸ pending)]
        exact ⟨sameResult, rfl, stillTwins, shown, leftShown, rightShown⟩

end Twins

end Simulator

end LedSketch
