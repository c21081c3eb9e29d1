import LedSketch.Proofs.Machine.Abreast
import LedSketch.Proofs.Simulation.Chronicle
import LedSketch.Proofs.Simulation.Twin

namespace LedSketch

/-!
# Order of declarations

Where the body of a program declares its functions makes no difference to its runs: they
answer their polls alike and show the same.  Only the steps over the declarations are made
at other times, which a poll notices if its step budget is short.
-/

open Machine (State)
open Script (Expr Program Stmt)

/-- Whether a poll has not given up waiting for its run. -/
def PollResult.isSettled : PollResult → Bool
  | .overBudget => false
  | _ => true

namespace Machine.State

variable {state : State}

theorem control_of_pending (pending : state.pollResult = .pending) :
    state.control = .suspended := by
  unfold pollResult at pending
  split at pending
  · assumption
  · cases pending
  · cases pending

theorem isSettled_pollResult : state.pollResult.isSettled = state.paused := by
  unfold pollResult paused
  cases state.control <;> rfl

end Machine.State

namespace Run

theorem settle_fst
    (run : Run)
    (state : State) :
    (run.settle state).1 = state.pollResult := by
  unfold settle
  cases state.pollResult <;> rfl

/-- The first poll of a run of a program. -/
def launch
    (config : Config)
    (run : Run)
    (program : Program)
    (host : Host) :
    PollResult × Run × Host :=
  run.settle ((State.begin config program host).goOn config)

/-- The first poll of a run that has only its sketch is that of a run of its program. -/
theorem begin_of_program?
    {source : String}
    {program : Program}
    (parsed : program? source = some program)
    (config : Config)
    (run : Run)
    (host : Host) :
    ∃ log, run.begin config source host = run.launch config program { host with log } := by
  unfold program? at parsed
  dsimp only at parsed
  unfold begin
  dsimp only
  rw [recordLowering_eq]
  cases result :
      Script.parse (Sketch.loweredBy source.toList (Sketch.lowerings source.toList)).text with
  | error error =>
      rw [result] at parsed
      cases parsed
  | ok found =>
      rw [result] at parsed
      cases parsed
      exact ⟨_, rfl⟩

/--
What a run answers to a poll and to those after it, each time with the host that it leaves
behind.  Before each later poll the host has changed: by presses, or by other runs.
-/
def answers
    (config : Config) :
    List (Host → Host) → PollResult × Run × Host → List (PollResult × Host)
  | [], (result, _, host) => [(result, host)]
  | change :: changes, (result, run, host) =>
      (result, host) :: answers config changes (run.poll config (change host))

/-- Whether no poll gives up waiting. -/
def Settled
    (config : Config)
    (changes : List (Host → Host))
    (polled : PollResult × Run × Host) :
    Prop :=
  ∀ answer ∈ answers config changes polled, answer.1.isSettled = true

theorem mem_answers
    (config : Config)
    (changes : List (Host → Host))
    (polled : PollResult × Run × Host) :
    (polled.1, polled.2.2) ∈ answers config changes polled := by
  cases changes with
  | nil => exact List.mem_singleton.mpr rfl
  | cons change changes => exact List.mem_cons_self

end Run

/-- Phases of two runs that have come equally far. -/
inductive Phase.Abreast (pending : Nat) : Phase → Phase → Prop where
  | suspended
      {state other : State}
      (abreast : State.Abreast pending state other)
      (resting : state.control = .suspended) :
      Abreast pending (.suspended state) (.suspended other)
  | ended (outcome : Outcome) : Abreast pending (.ended outcome) (.ended outcome)

/-- Polls that have told the same and left the same host, and runs that are abreast. -/
structure Run.Matched (pending : Nat) (polled other : PollResult × Run × Host) : Prop where
  result : other.1 = polled.1
  host : other.2.2 = polled.2.2
  generation : other.2.1.generation = polled.2.1.generation
  phase : polled.2.1.phase.Abreast pending other.2.1.phase

namespace Run

variable {config : Config} {budget pending : Nat}

theorem settle_matched
    {run otherRun : Run}
    {state other : State}
    (sameGeneration : otherRun.generation = run.generation)
    (abreast : State.Abreast pending state other)
    (settled : state.pollResult.isSettled = true) :
    Matched pending (run.settle state) (otherRun.settle other) := by
  unfold settle
  dsimp only
  rw [abreast.pollResult, abreast.world]
  cases result : state.pollResult with
  | pending =>
      have resting : state.control = .suspended := State.control_of_pending result
      exact ⟨rfl, rfl, sameGeneration, .suspended (abreast.attach .detached) resting⟩
  | ready outcome => exact ⟨rfl, by rw [sameGeneration], sameGeneration, .ended outcome⟩
  | overBudget =>
      rw [result] at settled
      contradiction

theorem goOn_matched
    {run otherRun : Run}
    {state other : State}
    (sameGeneration : otherRun.generation = run.generation)
    (abreast : State.Abreast pending state other)
    (settled : (run.settle (state.goOn config)).1.isSettled = true)
    (enough : config.stepBudget + 3 * pending ≤ budget) :
    Matched pending
      (run.settle (state.goOn config))
      (otherRun.settle (other.goOn { config with stepBudget := budget })) := by
  rw [settle_fst] at settled
  have paused := State.isSettled_pollResult.symm.trans settled
  exact settle_matched sameGeneration (abreast.goOn paused enough) settled

theorem poll_matched
    {run otherRun : Run}
    (sameGeneration : otherRun.generation = run.generation)
    (phase : run.phase.Abreast pending otherRun.phase)
    (host : Host)
    (settled : (run.poll config host).1.isSettled = true)
    (enough : config.stepBudget + 3 * pending ≤ budget) :
    Matched pending
      (run.poll config host)
      (otherRun.poll { config with stepBudget := budget } host) := by
  obtain ⟨generation, phase⟩ := run
  obtain ⟨otherGeneration, otherPhase⟩ := otherRun
  cases phase with
  | suspended abreast resting =>
      exact goOn_matched sameGeneration (abreast.wake resting host) settled enough
  | ended outcome => exact ⟨rfl, rfl, sameGeneration, .ended outcome⟩

/-- Runs that are abreast answer all later polls alike. -/
theorem answers_matched
    {polled other : PollResult × Run × Host}
    (changes : List (Host → Host))
    (matched : Matched pending polled other)
    (settled : Settled config changes polled)
    (enough : config.stepBudget + 3 * pending ≤ budget) :
    answers { config with stepBudget := budget } changes other =
      answers config changes polled := by
  induction changes generalizing polled other with
  | nil =>
      unfold answers
      rw [matched.result, matched.host]
  | cons change changes inductionHypothesis =>
      obtain ⟨_, laterSettled⟩ := List.forall_mem_cons.mp settled
      have nextSettled := laterSettled _ (mem_answers config changes _)
      have next := poll_matched matched.generation matched.phase (change polled.2.2)
        nextSettled enough
      unfold answers
      rw [matched.result, matched.host, inductionHypothesis next laterSettled]

/-- The polls of a rearranged program need three steps more for each of its functions. -/
theorem answers_of_rearranged
    (run : Run)
    (host : Host)
    (changes : List (Host → Host))
    {program other : Program}
    (rearranged : program.Rearranged other)
    (settled : Settled config changes (run.launch config program host))
    (enough : config.stepBudget + 3 * (Stmt.functions program.body).length ≤ budget) :
    answers { config with stepBudget := budget } changes
        (run.launch { config with stepBudget := budget } other host) =
      answers config changes (run.launch config program host) := by
  rw [rearranged.functions.length_eq] at enough
  have begun := settled _ (mem_answers config changes _)
  exact answers_matched changes
    (goOn_matched rfl (.begin rearranged config budget host) begun enough) settled enough

section Tells

variable (config : Config) (run : Run) (host : Host) (changes : List (Host → Host))

/-- What a run of a program answers to polls that wait for it long enough. -/
def Tells
    (program : Program)
    (told : List (PollResult × Host)) :
    Prop :=
  (∀ answer ∈ told, answer.1.isSettled = true) ∧
    ∃ least, ∀ budget, least ≤ budget →
      answers { config with stepBudget := budget } changes
        (run.launch { config with stepBudget := budget } program host) = told

variable {program other : Program}

/-- What polls are told that do not give up, longer polls of a rearranged program are told. -/
theorem tells_of_settled
    (rearranged : program.Rearranged other)
    (settled : Settled config changes (run.launch config program host)) :
    Tells config run host changes other
      (answers config changes (run.launch config program host)) :=
  ⟨settled, config.stepBudget + 3 * (Stmt.functions program.body).length,
    fun _ enough => answers_of_rearranged run host changes rearranged settled enough⟩

variable {config run host changes} in
/-- Polls that wait long enough are told the same by a rearranged program. -/
theorem Tells.rearranged
    {told : List (PollResult × Host)}
    (tells : Tells config run host changes program told)
    (rearranged : program.Rearranged other) :
    Tells config run host changes other told := by
  obtain ⟨settled, least, patient⟩ := tells
  have same := patient least (Nat.le_refl least)
  have inTime :
      Settled { config with stepBudget := least } changes
        (run.launch { config with stepBudget := least } program host) := by
    unfold Settled
    rw [same]
    exact settled
  have otherTells :=
    tells_of_settled { config with stepBudget := least } run host changes rearranged inTime
  rw [same] at otherTells
  exact otherTells

/--
If the functions that the body of a program declares have different names and are moved
to other places of the body, then a run answers its polls alike, and each poll leaves the
same host, with the same events.  If a poll of one of the programs never ends, then the
same poll of the other one never ends.
-/
theorem declaration_order_makes_no_difference
    (rearranged : program.Rearranged other)
    (told : List (PollResult × Host)) :
    Tells config run host changes program told ↔ Tells config run host changes other told :=
  ⟨fun tells => tells.rearranged rearranged, fun tells => tells.rearranged rearranged.symm⟩

end Tells

/-- Functions move behind their first uses, over a delay after which a handler is called. -/
theorem declaration_order_makes_no_difference_over_delay :
    ∃ (config : Config) (run : Run) (host : Host) (changes : List (Host → Host))
      (first second register wait last : Stmt) (told : List (PollResult × Host)),
      Program.Rearranged
          ⟨[first, second, register, wait, last]⟩
          ⟨[register, second, wait, last, first]⟩ ∧
        Tells config run host changes ⟨[first, second, register, wait, last]⟩ told ∧
        Tells config run host changes ⟨[register, second, wait, last, first]⟩ told ∧
        told.map (fun answer => answer.2.events.size) = [1, 3] := by
  let config : Config := ⟨1, none, .grb, 100⟩
  let run : Run := ⟨1, .lost⟩
  let host : Host := ⟨true, .empty, #[], #[]⟩
  let changes : List (Host → Host) := [fun host => { host with clicks := ⟨[0]⟩ }]
  let button (label : String) : Expr := .call 1 (.name 1 "createButton") [.text 1 label]
  let first : Stmt := .function 1 "make" [] [.returns 1 (some (button "a"))]
  let second : Stmt := .function 2 "more" [] [.expr (button "b")]
  let register : Stmt :=
    .expr (.call 3 (.member 3 (.call 3 (.name 3 "make") []) "onClick") [.name 3 "more"])
  let wait : Stmt := .expr (.call 3 (.name 3 "delay") [.int 3 5])
  let last : Stmt := .expr (.call 3 (.name 3 "more") [])
  have rearranged :
      Program.Rearranged
        ⟨[first, second, register, wait, last]⟩
        ⟨[register, second, wait, last, first]⟩ :=
    ⟨rfl, .swap _ _ _, by decide⟩
  obtain ⟨settled, shown⟩ :
      (answers config changes
          (run.launch config ⟨[first, second, register, wait, last]⟩ host)).all
            (·.1.isSettled) = true ∧
        (answers config changes
            (run.launch config ⟨[first, second, register, wait, last]⟩ host)).map
          (fun answer => answer.2.events.size) = [1, 3] := by
    decide +kernel
  have tells := tells_of_settled config run host changes (.refl rearranged.distinct)
    (List.all_eq_true.mp settled)
  have otherTells :=
    (declaration_order_makes_no_difference config run host changes rearranged _).mp tells
  exact ⟨config, run, host, changes, first, second, register, wait, last, _, rearranged, tells,
    otherTells, shown⟩

section Sketches

variable {config : Config} {run : Run} {changes : List (Host → Host)}
  {polled : PollResult × Run × Host}

/-- Changes of a host that look at nothing of what it was told before, as presses do not. -/
def Unaware (changes : List (Host → Host)) : Prop :=
  ∀ change ∈ changes, ∀ host past, change (host.after past) = (change host).after past

/-- An answer as it is seen from outside, where the log is not. -/
def shown (answer : PollResult × Host) : PollResult × Host :=
  (answer.1, { answer.2 with log := #[] })

/-- Polls are answered alike whatever the host was told before. -/
theorem answers_after
    (unaware : Unaware changes)
    (past : Past) :
    answers config changes (polled.1, polled.2.1, polled.2.2.after past) =
      (answers config changes polled).map fun answer => (answer.1, answer.2.after past) := by
  induction changes generalizing polled with
  | nil => rfl
  | cons change changes inductionHypothesis =>
      obtain ⟨here, later⟩ := List.forall_mem_cons.mp unaware
      simp only [answers, List.map_cons]
      rw [here, poll_after, inductionHypothesis later]

/-- A sketch is answered as its program is, up to what its conversion adds to the log. -/
theorem answers_begin
    {source : String}
    {program : Program}
    (parsed : program? source = some program)
    (unaware : Unaware changes)
    (host : Host) :
    ∃ past : Past,
      past.events = #[] ∧
        answers config changes (run.begin config source host) =
          (answers config changes (run.launch config program { host with log := #[] })).map
            fun answer => (answer.1, answer.2.after past) := by
  obtain ⟨log, begun⟩ := begin_of_program? parsed config run host
  have split : { host with log } = Host.after { host with log := #[] } ⟨#[], log⟩ := by
    simp [Host.after]
  have launched :
      run.launch config program (Host.after { host with log := #[] } ⟨#[], log⟩) =
        ((run.launch config program { host with log := #[] }).1,
          (run.launch config program { host with log := #[] }).2.1,
          (run.launch config program { host with log := #[] }).2.2.after ⟨#[], log⟩) := by
    unfold launch
    rw [← settle_after, ← Machine.State.after_goOn]
    rfl
  refine ⟨⟨#[], log⟩, rfl, ?_⟩
  rw [begun, split, launched, answers_after unaware]

theorem map_shown_after
    {past : Past}
    (noEvents : past.events = #[])
    (told : List (PollResult × Host)) :
    (told.map fun answer => (answer.1, answer.2.after past)).map shown = told.map shown := by
  rw [List.map_map]
  refine List.map_congr_left fun answer _ => ?_
  simp [shown, Host.after, noEvents]

/--
Two sketches whose programs differ in where they declare their functions are answered alike,
poll by poll, and their hosts show the same.  Only the logs tell of the different texts.
-/
theorem sketches_answer_alike
    {source otherSource : String}
    {program other : Program}
    (parsed : program? source = some program)
    (otherParsed : program? otherSource = some other)
    (rearranged : program.Rearranged other)
    (unaware : Unaware changes)
    (host : Host)
    (settled : Settled config changes (run.begin config source host))
    {budget : Nat}
    (enough : config.stepBudget + 3 * (Stmt.functions program.body).length ≤ budget) :
    (answers { config with stepBudget := budget } changes
        (run.begin { config with stepBudget := budget } otherSource host)).map shown =
      (answers config changes (run.begin config source host)).map shown := by
  obtain ⟨past, noEvents, sketch⟩ := @answers_begin config run changes _ _ parsed unaware host
  obtain ⟨otherPast, noOtherEvents, otherSketch⟩ :=
    @answers_begin { config with stepBudget := budget } run changes _ _ otherParsed unaware host
  have settledProgram :
      Settled config changes (run.launch config program { host with log := #[] }) := by
    intro answer member
    exact settled (answer.1, answer.2.after past) (by
      rw [sketch]
      exact List.mem_map_of_mem member)
  rw [sketch, otherSketch, map_shown_after noEvents, map_shown_after noOtherEvents,
    answers_of_rearranged run _ changes rearranged settledProgram enough]

end Sketches

end Run

end LedSketch
