import LedSketch.Proofs.Simulation.History

namespace LedSketch.Session

/-!
# Supersession

Starting a run makes every earlier one stale, for as long as the generations do not
come round again.  A stale run is inert, and ends when it is polled next.
-/

/-- A generation comes back exactly after whole rounds of all generations. -/
theorem generation_add_eq_iff
    (generation : UInt64)
    (starts : Nat) :
    generation + UInt64.ofNat starts = generation ↔ starts % UInt64.size = 0 := by
  rw [← UInt64.toNat_inj, UInt64.toNat_add, UInt64.toNat_ofNat']
  have small := generation.toNat_lt
  simp only [UInt64.size] at small ⊢
  omega

/-- After a history that starts other runs, a run kept under a name is stale. -/
theorem KeepsFrom.stale
    {session : Session}
    {name : String}
    {commands : List Command}
    {run : Run}
    (keeps : session.KeepsFrom name session.simulator.generation)
    (notRestarted : ∀ source, .start name source ∉ commands)
    (superseded : startCount commands % UInt64.size ≠ 0)
    (kept : (session.performAll commands).run? name = some run) :
    run.IsRestable ∧
      (session.performAll commands).simulator.generation ≠ run.generation := by
  obtain ⟨restable, born⟩ := keeps.performAll notRestarted run kept
  obtain ⟨sameConfig, counted⟩ := session.performAll_config_generation commands
  refine ⟨restable, ?_⟩
  rw [counted, born]
  exact fun same => superseded ((generation_add_eq_iff _ _).mp same)

/-- Polls under a name whose run is stale show nothing and take no click. -/
theorem perform_poll_of_stale
    {session : Session}
    {name : String}
    (stale :
      ∀ run, session.run? name = some run →
        run.IsRestable ∧ session.simulator.generation ≠ run.generation)
    (times : Nat) :
    (session.perform (.poll name times)).2.simulator.events = session.simulator.events ∧
      (session.perform (.poll name times)).2.simulator.clicks = session.simulator.clicks := by
  cases known : session.run? name with
  | none =>
      rw [perform_poll_missing known]
      exact ⟨rfl, rfl⟩
  | some run =>
      obtain ⟨restable, older⟩ := stale run known
      rw [perform_poll_known known]
      exact Simulator.pollUpTo_of_stale restable older times

/-- A poll that answers that the run is pending leaves it kept and at rest. -/
theorem run?_of_answered_pending
    {session : Session}
    {name : String}
    {times polls : Nat}
    (answered :
      (session.perform (.poll name times)).1 = .polled .pending (polls + 1)) :
    ∃ run state,
      (session.perform (.poll name times)).2.run? name = some run ∧
        run.phase = .suspended state := by
  cases known : session.run? name with
  | none =>
      rw [perform_poll_missing known] at answered
      contradiction
  | some run =>
      rw [perform_poll_known known] at answered ⊢
      injection answered with pending counted
      obtain ⟨times, rfl⟩ : ∃ fewer, times = fewer + 1 := by
        cases times with
        | zero => contradiction
        | succ fewer => exact ⟨fewer, rfl⟩
      obtain ⟨state, suspended⟩ := Simulator.pollUpTo_pending pending
      refine ⟨_, state, ?_, suspended⟩
      rw [run?_keptAfter, pending]

/--
Once newer runs have been started, polls of a run show nothing and take no click, and
if its last poll left it pending, its next poll ends it as superseded.  Only a whole
round of the generations makes a run current again.
-/
theorem superseded_run_inert
    (config : Config)
    (earlier later : List Command)
    (name source : String)
    (notRestarted : ∀ other, .start name other ∉ later)
    (superseded : startCount later % UInt64.size ≠ 0) :
    let session := (create config).performAll (earlier ++ .start name source :: later)
    (∀ times,
      (session.perform (.poll name times)).2.simulator.events = session.simulator.events ∧
        (session.perform (.poll name times)).2.simulator.clicks =
          session.simulator.clicks) ∧
      ∀ middle quiet times polls,
        later = middle ++ .poll name times :: quiet →
        (∀ command ∈ quiet, command.name? ≠ some name) →
        (((create config).performAll (earlier ++ .start name source :: middle)).perform
          (.poll name times)).1 = .polled .pending (polls + 1) →
        ∀ more,
          (session.perform (.poll name (more + 1))).1 = .polled (.ready .superseded) 1 := by
  intro session
  have sessionAfter :
      session =
        (((create config).performAll earlier).perform (.start name source)).2.performAll
          later :=
    performAll_append ..
  have stale :
      ∀ run, session.run? name = some run →
        run.IsRestable ∧ session.simulator.generation ≠ run.generation := by
    intro run kept
    rw [sessionAfter] at kept ⊢
    exact (KeepsFrom.start _ name source).stale notRestarted superseded kept
  constructor
  · exact perform_poll_of_stale stale
  · intro middle quiet times polls split others answered more
    have atRest :
        session =
          (((create config).performAll
            (earlier ++ .start name source :: middle)).perform (.poll name times)).2.performAll
            quiet := by
      change (create config).performAll (earlier ++ .start name source :: later) = _
      rw [split, ← List.cons_append, ← List.append_assoc]
      exact performAll_append ..
    obtain ⟨run, state, kept, suspended⟩ := run?_of_answered_pending answered
    rw [← run?_performAll_other others, ← atRest] at kept
    obtain ⟨restable, older⟩ := stale run kept
    obtain ⟨ready, once⟩ :=
      Simulator.pollUpTo_suspended_of_stale restable suspended older more
    rw [perform_poll_known kept, ready, once]

/-- A run that waits in a delay ends as superseded once another run has been started. -/
theorem superseded_run_inert_in_delay :
    startCount [.poll "old" 1, .start "new" ""] % UInt64.size ≠ 0 ∧
      (((create ⟨1, none, .grb, 1000⟩).performAll
          [.start "old" "delay(5);", .poll "old" 1, .start "new" ""]).perform
        (.poll "old" 1)).1 = .polled (.ready .superseded) 1 := by
  have waits :
      (((create ⟨1, none, .grb, 1000⟩).performAll [.start "old" "delay(5);"]).perform
        (.poll "old" 1)).1 = .polled .pending 1 :=
    Answer.eq_of_isPendingAfter (by decide +kernel)
  obtain ⟨inert, ends⟩ :=
    superseded_run_inert ⟨1, none, .grb, 1000⟩ [] [.poll "old" 1, .start "new" ""]
      "old" "delay(5);" (by simp) (by decide)
  exact ⟨by decide, ends [] [.start "new" ""] 1 0 rfl (by simp [Command.name?]) waits 0⟩

end LedSketch.Session
