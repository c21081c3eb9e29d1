import LedSketch.Proofs.Machine.Declaring
import LedSketch.Proofs.Script.CounterCheck
import LedSketch.Proofs.Simulation.Chronicle
import Mathlib.Algebra.Ring.Int.Defs

namespace LedSketch

/-!
# No update is lost

The step that combines a counter with an operand reads the counter and writes it.  So
whatever runs while the operand is evaluated, and whoever counts, the counter is what it
was declared with and all that has been added to it since.
-/

open Script (Value Limits BinaryOp Scopes)

namespace Machine

/-- The amount that the next step adds to the counter. -/
def State.increment?
    (counter : String)
    (state : State) :
    Option Int :=
  match state.write? counter with
  | some (.add, .int amount) => some amount.toInt
  | some (.sub, .int amount) => some (-amount.toInt)
  | _ => none

/-- Whether the next step combines the counter with nothing but an integer. -/
def State.countsInt
    (counter : String)
    (state : State) :
    Bool :=
  match state.write? counter with
  | some (_, .int _) => true
  | some _ => false
  | none => true

/-- The integer that the next step declares the counter with, if it is one. -/
def State.initialInt?
    (counter : String)
    (state : State) :
    Option Int64 :=
  match state.initial? counter with
  | some (.int initial) => some initial
  | _ => none

theorem State.initial?_of_initialInt?
    {counter : String}
    {state : State}
    {initial : Int64}
    (declares : state.initialInt? counter = some initial) :
    state.initial? counter = some (.int initial) := by
  unfold initialInt? at declares
  split at declares
  · next isInt => rw [isInt, Option.some.inj declares]
  · contradiction

/-- What a counter is that has been declared with a value and then counted with. -/
def counted
    (counter : String)
    (initial : Int64)
    (between : List State) :
    Int64 :=
  .ofInt (initial.toInt + (between.filterMap (State.increment? counter)).sum)

namespace State

variable {counter : String} {state : State}

/-- Code within the limits of a counter adds to it or subtracts from it. -/
theorem Within.op_of_write?
    {op : BinaryOp}
    {operand : Value}
    (within : state.Within (.counting counter))
    (written : state.write? counter = some (op, operand)) :
    op = .add ∨ op = .sub := by
  obtain ⟨line, step, fixity, asked, rfl, rfl⟩ | ⟨line, rest, given, top⟩ :=
    write_cases written
  · cases step with
    | increment => exact .inl rfl
    | decrement => exact .inr rfl
  · have allowed := (within.hold.popped top).1.2 rfl
    exact allowed.imp Option.some.inj Option.some.inj

/-- A step adds its increment to a counter. -/
theorem rebound_int
    {current : Int64}
    (within : state.Within (.counting counter))
    (counts : state.countsInt counter = true) :
    state.rebound counter (some (.int current)) =
      some (.int (current + .ofInt (state.increment? counter).toList.sum)) := by
  unfold rebound increment?
  unfold State.countsInt at counts
  cases written : state.write? counter with
  | none => simp
  | some write =>
      obtain ⟨op, operand⟩ := write
      rw [written] at counts
      cases operand with
      | int amount =>
          obtain rfl | rfl := within.op_of_write? written
          · change some (Value.int (current + amount)) = _
            simp
          · change some (Value.int (current - amount)) = _
            simp [Int64.sub_eq_add_neg]
      | _ => contradiction

theorem anchored_step
    {current : Int64}
    (anchored : state.Anchored counter (some (.int current)))
    (within : state.Within (.counting counter))
    (counts : state.countsInt counter = true) :
    state.step.Anchored counter
      (some (.int (current + .ofInt (state.increment? counter).toList.sum))) := by
  rw [← rebound_int within counts]
  exact anchored.step within

/-- The step that writes a counter of integers does not fail. -/
theorem step_of_write
    {current : Int64}
    {op : BinaryOp}
    {operand : Value}
    (anchored : state.Anchored counter (some (.int current)))
    (within : state.Within (.counting counter))
    (counts : state.countsInt counter = true)
    (written : state.write? counter = some (op, operand)) :
    ∃ given, state.step.control = .value given := by
  unfold State.countsInt at counts
  rw [written] at counts
  cases operand with
  | int amount =>
      have computed (heap : Script.Heap) :
          ∃ result, Value.binary heap op (.int current) (.int amount) = .ok result := by
        obtain rfl | rfl := within.op_of_write? written <;> exact ⟨_, rfl⟩
      obtain ⟨result, computed⟩ := computed state.world.heap
      obtain ⟨line, direction, fixity, asked, rfl, isOne⟩ | ⟨line, rest, given, top⟩ :=
        write_cases written
      · rw [isOne] at computed
        rw [step, asked]
        exact anchored.finishUpdate_gives computed fixity
      · rw [step_of_value given top]
        exact ⟨result, (anchored.popped top rfl).finishAssign_gives computed⟩
  | _ => contradiction

end State

theorem counted_append
    (counter : String)
    (initial : Int64)
    (between : List State)
    (state : State) :
    counted counter initial (between ++ [state]) =
      counted counter initial between + .ofInt (state.increment? counter).toList.sum := by
  have last :
      [state].filterMap (State.increment? counter) = (state.increment? counter).toList := by
    cases passes : state.increment? counter with
    | none => rw [List.filterMap_cons_none passes]; rfl
    | some amount => rw [List.filterMap_cons_some passes]; rfl
  unfold counted
  rw [List.filterMap_append, List.sum_append, last, ← Int.add_assoc, Int64.ofInt_add]

/-- How far a run has come with its counter. -/
inductive Counting (counter : String) (past : List State) (state : State) : Prop where
  | awaiting
      (awaiting : Awaiting counter state)
      (undeclared : ∀ earlier ∈ past, earlier.initial? counter = none) :
      Counting counter past state
  | declared
      (within : state.Within (.counting counter))
      (anchored : ∃ found, state.Anchored counter found)
      (counts :
        ∀ before declaring between initial,
          past = before ++ declaring :: between →
          declaring.initial? counter = some (.int initial) →
          (∀ earlier ∈ between, earlier.countsInt counter = true) →
          state.Anchored counter (some (.int (counted counter initial between)))) :
      Counting counter past state

namespace Counting

variable {counter : String} {past : List State} {state : State}

theorem step (counting : Counting counter past state) :
    Counting counter (past ++ [state]) state.step := by
  cases counting with
  | awaiting awaiting undeclared =>
      obtain ⟨nothing, onward⟩ | ⟨value, declares, within, anchored⟩ := awaiting.proceeds
      · refine .awaiting onward (List.forall_mem_append.mpr ⟨undeclared, ?_⟩)
        exact List.forall_mem_singleton.mpr nothing
      · refine .declared within ⟨_, anchored⟩ ?_
        intro before declaring between initial whole isInitial counts
        obtain ⟨rfl, rfl, rfl⟩ | ⟨earlier, rfl, rfl⟩ := split_last whole
        · obtain rfl := Option.some.inj (declares.symm.trans isInitial)
          have same : counted counter initial [] = initial := by simp [counted]
          rw [same]
          exact anchored
        · have undeclaring := undeclared declaring (by simp)
          rw [undeclaring] at isInitial
          contradiction
  | declared within anchored counts =>
      obtain ⟨found, anchored⟩ := anchored
      refine .declared (within.step fun _ _ => trivial) ⟨_, anchored.step within⟩ ?_
      intro before declaring between initial whole isInitial allCount
      obtain ⟨rfl, rfl, rfl⟩ | ⟨earlier, rfl, rfl⟩ := split_last whole
      · rw [within.initial?] at isInitial
        contradiction
      · obtain ⟨earlierCount, lastCounts⟩ := List.forall_mem_append.mp allCount
        have anchored := counts before declaring earlier initial rfl isInitial earlierCount
        rw [counted_append]
        exact State.anchored_step anchored within (lastCounts state List.mem_cons_self)

/-- A run that rests or wakes up keeps its stack and its scopes. -/
theorem resumed
    {other : State}
    (counting : Counting counter past state)
    (awaits : Awaiting counter state → Awaiting counter other)
    (keeps : state.Within (.counting counter) → other.Within (.counting counter))
    (sameStack : other.stack = state.stack)
    (sameScopes : other.scopes = state.scopes) :
    Counting counter past other := by
  have anchors
      {found : Option Value}
      (anchored : state.Anchored counter found) :
      other.Anchored counter found := by
    obtain ⟨rooted, nested⟩ := anchored
    rw [← sameScopes] at rooted nested
    rw [← sameStack] at nested
    exact ⟨rooted, nested⟩
  cases counting with
  | awaiting awaiting undeclared => exact .awaiting (awaits awaiting) undeclared
  | declared within anchored counts =>
      obtain ⟨found, anchored⟩ := anchored
      refine .declared (keeps within) ⟨found, anchors anchored⟩ ?_
      intro before declaring between initial whole isInitial allCount
      exact anchors (counts before declaring between initial whole isInitial allCount)

/-- At every moment a run is on the way to its counter, or has counted right. -/
theorem lasting (counter : String) : Lasting (Counting counter) where
  step counting := counting.step
  attach host suspended counting :=
    counting.resumed (fun awaiting => awaiting.attach suspended host)
      (fun within => State.within_attach within host) rfl rfl
  wake host suspended counting :=
    counting.resumed (fun awaiting => awaiting.wake suspended host)
      (fun within => State.within_wake within host) rfl rfl

end Counting

end Machine

namespace Chronicle

/--
No update of a counter is lost.  Let a program declare a counter once, as a variable of its
top level with an initial value, and otherwise only step it, add to it and subtract from
it.  Then at every moment after it was declared with an integer, and counted with integers
only, the counter is its initial value and the sum of all increments since, modulo two to
the power of 64, wherever it is read; and a step that writes the counter does not fail.
-/
theorem no_update_lost
    (config : Config)
    (generation : UInt64)
    (source : String)
    (hosts : List Host)
    (program : Script.Program)
    (counter : String)
    (parsed : Run.program? source = some program)
    (introduces : Script.Stmt.Introduce counter program.body) :
    let chronicle := (start generation source).follow config hosts
    ∀ past state,
      chronicle.Moment past state →
      ∀ before declaring between initial,
        past = before ++ declaring :: between →
        declaring.initial? counter = some (.int initial) →
        (∀ earlier ∈ between, earlier.countsInt counter = true) →
        let sum := (between.filterMap (Machine.State.increment? counter)).sum
        let value : Value := .int (.ofInt (initial.toInt + sum))
        state.scopes.getFrom? Scopes.globalId counter = some value ∧
          state.scopes.get? counter = some value ∧
            (state.countsInt counter = true →
              state.write? counter ≠ none →
                ∃ given, state.step.control = .value given) := by
  intro chronicle past state moment before declaring between initial whole isInitial allCount
  have counting : Machine.Counting counter past state := by
    refine moment.lasting (Machine.Counting.lasting counter) ?_
    intro other host isProgram
    obtain rfl := Option.some.inj (isProgram.symm.trans parsed)
    exact .awaiting (.begin introduces config host) (List.forall_mem_nil _)
  cases counting with
  | awaiting awaiting undeclared =>
      have member : declaring ∈ past := by
        rw [whole]
        exact List.mem_append_right _ List.mem_cons_self
      rw [undeclared declaring member] at isInitial
      contradiction
  | declared within anchored counts =>
      have anchored := counts before declaring between initial whole isInitial allCount
      refine ⟨anchored.rooted.getFrom?_globalId, anchored.rooted.get?, ?_⟩
      intro countsInt writes
      obtain ⟨⟨op, operand⟩, written⟩ := Option.ne_none_iff_exists'.mp writes
      exact Machine.State.step_of_write anchored within countsInt written

/-- A handler that counts while an operand waits is counted, and so is the operand. -/
theorem no_update_lost_around_delay :
    ∃ (config : Config) (hosts : List Host) (program : Script.Program)
      (chronicle : Chronicle) (before between : List Machine.State)
      (declaring state : Machine.State),
      Run.program?
          "let n=1;function p()\x7bn++;\x7dcreateButton(1).onClick(p);n+=[delay(5),2][1];" =
          some program ∧
        Script.Stmt.Introduce "n" program.body ∧
        chronicle =
          (start 1
            "let n=1;function p()\x7bn++;\x7dcreateButton(1).onClick(p);n+=[delay(5),2][1];").follow
            config hosts ∧
        chronicle.Moment (before ++ declaring :: between) state ∧
        declaring.initial? "n" = some (.int 1) ∧
        (∀ earlier ∈ between, earlier.countsInt "n" = true) ∧
        between.filterMap (Machine.State.increment? "n") = [1, 2] ∧
        state.scopes.getFrom? Scopes.globalId "n" = some (.int 4) := by
  let config : Config := ⟨1, none, .grb, 1000⟩
  let hosts : List Host := [⟨true, .empty, #[], #[]⟩, ⟨true, ⟨[0]⟩, #[], #[]⟩]
  let sketch :=
    "let n=1;function p()\x7bn++;\x7dcreateButton(1).onClick(p);n+=[delay(5),2][1];"
  obtain ⟨checked, going, declares, allCount, increments⟩ :
      (Run.program? sketch).any (fun program => Script.Stmt.introduces "n" program.body) =
          true ∧
        ((start 1 sketch).follow config hosts).states[80]?.isSome = true ∧
        (((start 1 sketch).follow config hosts).states.take 80)[5]?.bind
            (Machine.State.initialInt? "n") = some 1 ∧
        ((((start 1 sketch).follow config hosts).states.take 80).drop 6).all
            (Machine.State.countsInt "n") = true ∧
        ((((start 1 sketch).follow config hosts).states.take 80).drop 6).filterMap
            (Machine.State.increment? "n") = [1, 2] := by
    decide +kernel
  obtain ⟨program, parsed, introduced⟩ := (Option.any_eq_true _ _).mp checked
  have introduces := Script.Stmt.introduce_of_check introduced
  have applied := no_update_lost config 1 sketch hosts program "n" parsed introduces
  -- From here on the run stands for itself, so that nothing makes it go through its steps.
  generalize made : (start 1 sketch).follow config hosts = chronicle at *
  obtain ⟨state, found⟩ := Option.isSome_iff_exists.mp going
  obtain ⟨declaring, atFive, isInt⟩ := Option.bind_eq_some_iff.mp declares
  have moment : chronicle.Moment (chronicle.states.take 80) state := .of_getElem? found
  have initial := Machine.State.initial?_of_initialInt? isInt
  generalize chronicle.states.take 80 = past at *
  obtain ⟨within, rfl⟩ := List.getElem?_eq_some_iff.mp atFive
  have whole : past = past.take 5 ++ past[5] :: past.drop 6 := by
    rw [← List.drop_eq_getElem_cons within]
    exact (List.take_append_drop 5 past).symm
  have allCount := List.all_eq_true.mp allCount
  have counts := (applied past state moment _ _ _ 1 whole initial allCount).1
  rw [increments] at counts
  rw [whole] at moment
  exact ⟨config, hosts, program, chronicle, _, _, _, state, parsed, introduces, made.symm,
    moment, initial, allCount, increments, counts⟩

end Chronicle

end LedSketch
