import LedSketch.Proofs.Machine.Followed
import LedSketch.Proofs.Machine.Numbered
import LedSketch.Proofs.Machine.Seats
import LedSketch.Proofs.Script.PartedScopes

namespace LedSketch.Machine

/-!
# Scopes of a loop

A loop that opens one scope is followed by one that opens an empty scope more in each of its
turns, and comes to one declaration event more.  During a turn the scope of the loop is
parted, and between the turns it is whole.
-/

open Script

section Renumbered

variable {numbers other : Renumbering}

/-- A result has the same numbers where its value has. -/
theorem Control.renumbered_congr
    {control : Control}
    (isResult : control.isResult = true)
    (agree : ∀ value ∈ control.values, numbers.Agree other value) :
    control.renumbered numbers = control.renumbered other := by
  cases control with
  | value value => exact congrArg Control.value (agree value List.mem_cons_self)
  | flow flow =>
      cases flow with
      | returned value =>
          exact congrArg (fun value => Control.flow (.returned value))
            (agree value List.mem_cons_self)
      | _ => rfl
  | raise => rfl
  | _ => cases isResult

/-- A control that keeps no value has no numbers. -/
theorem Control.renumbered_of_code
    {control : Control}
    (code : control.values = []) :
    control.renumbered numbers = control := by
  cases control with
  | arrayItems done rest | bindParameters parameters done body =>
      cases done with
      | nil => rfl
      | cons => cases code
  | flow flow =>
      cases flow with
      | returned => cases code
      | _ => rfl
  | findCase | collectArguments | call | invoke | loopTop | value => cases code
  | _ => rfl

end Renumbered

/-- Gaps that were left since one state, up to another. -/
structure GapsBetween
    (start state : State)
    (gaps : Gaps) :
    Prop where
  scopes : ∀ gap ∈ gaps.scopes, start.scopes.next < gap ∧ gap ≤ state.scopes.next
  births : ∀ gap ∈ gaps.births, start.nextBirth ≤ gap ∧ gap ≤ state.nextBirth

/-- The scope that a loop has opened, parted by a turn. -/
def State.loopParting (start : State) : Parting where
  own := start.scopes.next
  floor := start.scopes.stack.length + 1

/-- The numbers that the other execution has given, between the turns and in a turn. -/
inductive Numbering (start state : State) : Option Parting → Renumbering → Prop where
  | whole
      {gaps : Gaps}
      (between : GapsBetween start state gaps) :
      Numbering start state none (.across gaps)
  | parted
      {gaps : Gaps}
      {target : Nat}
      (between : GapsBetween start state gaps)
      (inner : Scopes.globalId < start.scopes.next)
      (free : ∀ id, (Renumbering.across gaps).scope id ≠ target) :
      Numbering start state (some start.loopParting)
        (.redirected (.across gaps) start.scopes.next target inner free)

namespace GapsBetween

variable {start state later : State} {gaps : Gaps}

/-- Gaps stay between numbers that have been given and those to come. -/
theorem mono
    (between : GapsBetween start state gaps)
    (scopes : state.scopes.next ≤ later.scopes.next)
    (births : state.nextBirth ≤ later.nextBirth) :
    GapsBetween start later gaps where
  scopes gap isGap := (between.scopes gap isGap).imp_right (Nat.le_trans · scopes)
  births gap isGap := (between.births gap isGap).imp_right (Nat.le_trans · births)

/-- The next scope and the next declaration event leave gaps. -/
theorem more
    (between : GapsBetween start state gaps)
    (inner : Scopes.globalId < state.scopes.next)
    (scopes : start.scopes.next < state.scopes.next)
    (births : start.nextBirth ≤ state.nextBirth) :
    GapsBetween start state (gaps.more state.scopes.next state.nextBirth inner) where
  scopes := List.forall_mem_cons.mpr ⟨⟨scopes, Nat.le_refl _⟩, between.scopes⟩
  births := List.forall_mem_cons.mpr ⟨⟨births, Nat.le_refl _⟩, between.births⟩

/-- The numbers behind a gap are ahead. -/
theorem ahead (between : GapsBetween start state gaps) : state.Ahead (.across gaps) where
  scope := beyond_succ fun gap isGap => (between.scopes gap isGap).2
  birth := beyond_succ fun gap isGap => (between.births gap isGap).2

/-- Up to the scope of the loop no number is left out. -/
theorem scope_eq
    {id : Nat}
    (between : GapsBetween start state gaps)
    (early : id ≤ start.scopes.next) :
    (Renumbering.across gaps).scope id = id :=
  beyond_of_lt fun gap isGap => Nat.lt_of_le_of_lt early (between.scopes gap isGap).1

/-- A gap leaves the numbers before it as they are. -/
theorem fixes (between : GapsBetween start state gaps) :
    (Renumbering.across gaps).Fixes start.scopes.next start.nextBirth where
  scope _ early := between.scope_eq (Nat.le_of_lt early)
  birth _ early :=
    beyond_of_lt fun gap isGap => Nat.lt_of_lt_of_le early (between.births gap isGap).1

end GapsBetween

namespace Numbering

variable {start state later : State} {parting : Option Parting} {numbers : Renumbering}

theorem mono
    (numbering : Numbering start state parting numbers)
    (scopes : state.scopes.next ≤ later.scopes.next)
    (births : state.nextBirth ≤ later.nextBirth) :
    Numbering start later parting numbers := by
  cases numbering with
  | whole between => exact .whole (between.mono scopes births)
  | parted between inner free => exact .parted (between.mono scopes births) inner free

theorem ahead
    (numbering : Numbering start state parting numbers)
    (opened : start.scopes.next < state.scopes.next) :
    state.Ahead numbers := by
  cases numbering with
  | whole between => exact between.ahead
  | parted between inner free =>
      refine ⟨?_, between.ahead.birth⟩
      unfold Renumbering.redirected
      dsimp only
      rw [if_neg (Nat.ne_of_gt opened), if_neg (Nat.ne_of_gt (Nat.lt_succ_of_lt opened))]
      exact between.ahead.scope

theorem fixes (numbering : Numbering start state parting numbers) :
    numbers.Fixes start.scopes.next start.nextBirth := by
  cases numbering with
  | whole between => exact between.fixes
  | parted between inner free =>
      refine ⟨fun id early => ?_, between.fixes.birth⟩
      unfold Renumbering.redirected
      dsimp only
      rw [if_neg (Nat.ne_of_lt early)]
      exact between.fixes.scope id early

theorem floor_eq
    {parted : Parting}
    (numbering : Numbering start state parting numbers)
    (isParted : parted ∈ parting) :
    parted = start.loopParting := by
  cases numbering with
  | whole => cases isParted
  | parted =>
      cases isParted
      rfl

end Numbering

/--
A state of an execution since a loop has opened its scope, and the one that follows it.  In
the scope of the loop no functions are declared.
-/
structure InLoop
    (start : State)
    (parting : Option Parting)
    (numbers : Renumbering)
    (state other : State) :
    Prop where
  started : Scopes.globalId < start.scopes.next
  numbered : state.Numbered
  avoids : state.Holds (Value.Avoids start.scopes.next)
  atop :
    state.scopes.Atop (start.scopes.next :: start.scopes.ids) (state.stack.countP Frame.closes)
  births : start.nextBirth ≤ state.nextBirth
  numbering : Numbering start state parting numbers
  follows : state.Follows numbers parting other

/-- What is below the floor stays there when scopes are opened, closed and written. -/
theorem levelled_atop (floor : List Nat) :
    Levelled fun count scopes => scopes.Atop floor count where
  writes atop := atop.writes
  opens atop _ := atop.pushUnder _
  closes atop := atop.pop

/-- The state after a block has been entered that declares no function. -/
def State.entered (state : State) : State :=
  { state with scopes := state.scopes.push, nextBirth := state.nextBirth + 1 }

namespace InLoop

variable {start state other : State} {parting : Option Parting} {numbers : Renumbering}

/-- The scope of the loop has been opened. -/
theorem opened (inLoop : InLoop start parting numbers state other) :
    start.scopes.next < state.scopes.next := by
  obtain ⟨inner, whole, _⟩ := inLoop.atop
  refine inLoop.numbered.scopes.lt_of_isOpen ((Scopes.isOpen_iff _ _).mpr ?_)
  rw [whole]
  exact List.mem_append_right inner List.mem_cons_self

/-- Scopes that are opened in a turn are inside of the parting one. -/
theorem inside
    (inLoop : InLoop start parting numbers state other)
    (above : 0 < state.stack.countP Frame.closes) :
    state.scopes.Inside parting := by
  intro parted isParted
  have sameSize : start.scopes.ids.length = start.scopes.stack.length := List.length_map _
  rw [inLoop.numbering.floor_eq isParted, inLoop.atop.length_eq, List.length_cons, sameSize]
  exact Nat.lt_add_of_pos_left above

/-- Both executions make the same step, if in the scope of the loop nothing is declared. -/
theorem step
    (inLoop : InLoop start parting numbers state other)
    (enters : ∀ body, state.control = .enterBlock body → 0 < state.stack.countP Frame.closes)
    (touches :
      parting ≠ none → state.Touches → 0 < state.stack.countP Frame.closes) :
    InLoop start parting numbers state.step other.step where
  started := inLoop.started
  numbered := inLoop.numbered.step
  avoids := by
    refine inLoop.avoids.step_of_declared (concernsFunctions_avoids _) ?_
    rintro body control function - closure ⟨rfl⟩
    exact inLoop.atop.current_ne inLoop.numbered.scopes (enters body control)
  atop := (levelled_atop _).step inLoop.atop
  births := Nat.le_trans inLoop.births state.nextBirth_le_step
  numbering := inLoop.numbering.mono state.next_le_step state.nextBirth_le_step
  follows := by
    refine inLoop.follows.step (inLoop.numbering.ahead inLoop.opened) fun touch => ?_
    cases parting with
    | none => exact fun _ isParted => by cases isParted
    | some parted => exact inLoop.inside (touches nofun touch)

/-- Both loops are woken by the same host. -/
theorem wake
    (inLoop : InLoop start parting numbers state other)
    (host : Host) :
    InLoop start parting numbers (state.wake host) (other.wake host) where
  started := inLoop.started
  numbered := inLoop.numbered.wake host
  avoids := inLoop.avoids.wake (concernsFunctions_avoids _) host
  atop := inLoop.atop
  births := inLoop.births
  numbering := inLoop.numbering.mono (Nat.le_refl _) (Nat.le_refl _)
  follows := inLoop.follows.wake host

/-- Nothing waits in the one loop when nothing waits in the other. -/
theorem alone
    (inLoop : InLoop start parting numbers state other)
    (alone : state.stack = []) :
    other.stack = [] := by
  rw [inLoop.follows.stack, alone]
  rfl

theorem gotoSame (inLoop : InLoop start parting numbers state other) :
    InLoop start parting numbers
      (state.goto state.control) (other.goto (state.control.renumbered numbers)) := by
  have same : state.control.renumbered numbers = other.control := inLoop.follows.control.symm
  rw [same]
  exact inLoop

/-- Both executions go on with the same code. -/
theorem goto
    (inLoop : InLoop start parting numbers state other)
    (control : Control)
    (code : control.values = []) :
    InLoop start parting numbers (state.goto control) (other.goto control) where
  started := inLoop.started
  numbered := ⟨inLoop.numbered.values.stores.goto (by simp [code]), inLoop.numbered.scopes⟩
  avoids := inLoop.avoids.stores.goto (by simp [code])
  atop := inLoop.atop
  births := inLoop.births
  numbering := inLoop.numbering.mono (Nat.le_refl _) (Nat.le_refl _)
  follows := by
    have gone := inLoop.follows.goto control
    rwa [Control.renumbered_of_code code] at gone

/-- A frame that keeps no value and closes no scope takes the result in both executions. -/
theorem push
    {frame : Frame}
    (inLoop : InLoop start parting numbers state other)
    (code : frame.values = [])
    (same : frame.renumbered numbers = frame)
    (closesNone : frame.closes = false) :
    InLoop start parting numbers (state.push frame) (other.push frame) where
  started := inLoop.started
  numbered :=
    ⟨⟨inLoop.numbered.values.stores.push (by simp [code]), inLoop.numbered.values.control⟩,
      inLoop.numbered.scopes⟩
  avoids := ⟨inLoop.avoids.stores.push (by simp [code]), inLoop.avoids.control⟩
  atop := by
    have atop := inLoop.atop
    rwa [← List.countP_cons_of_neg (p := Frame.closes) (a := frame)
      (by rw [closesNone]; exact Bool.false_ne_true)] at atop
  births := inLoop.births
  numbering := inLoop.numbering.mono (Nat.le_refl _) (Nat.le_refl _)
  follows := by
    obtain ⟨scopes, follows, rfl⟩ := inLoop.follows
    refine ⟨scopes, follows, ?_⟩
    unfold State.push State.renumbered State.withScopes
    rw [List.map_cons, same]

/-- A completion is taken for a value in both executions. -/
theorem answer
    {flow : Flow}
    (inLoop : InLoop start parting numbers state other)
    (completed : state.control = .flow flow) :
    InLoop start parting numbers
      (state.goto (.value flow.value))
      (other.goto (.value (flow.renumbered numbers).value)) := by
  have kept
      {good : Value → Prop}
      (plain : ConcernsFunctions good)
      (holds : state.Holds good) :
      good flow.value := by
    cases flow with
    | returned value => exact holds.control value (by rw [completed]; exact List.mem_cons_self)
    | _ => exact plain.undefined
  rw [Flow.value_renumbered]
  exact
    { started := inLoop.started
      numbered :=
        ⟨inLoop.numbered.values.stores.give
            (kept (concernsFunctions_known _ _) inLoop.numbered.values),
          inLoop.numbered.scopes⟩
      avoids := inLoop.avoids.stores.give (kept (concernsFunctions_avoids _) inLoop.avoids)
      atop := inLoop.atop
      births := inLoop.births
      numbering := inLoop.numbering.mono (Nat.le_refl _) (Nat.le_refl _)
      follows := inLoop.follows.goto _ }

/-- Between the turns, the scope of the loop is the innermost one where none is to be closed. -/
theorem innermost
    (inLoop : InLoop start parting numbers state other)
    (none : state.stack.countP Frame.closes = 0) :
    ∃ scope outer,
      state.scopes.stack = scope :: outer ∧
        scope.id = start.scopes.next ∧
          start.loopParting = ⟨start.scopes.next, outer.length + 1⟩ ∧
            outer.map Scope.id = start.scopes.ids := by
  obtain ⟨inner, whole, sameLength⟩ := inLoop.atop
  rw [none] at sameLength
  cases List.eq_nil_of_length_eq_zero sameLength
  obtain ⟨scope, outer, opened, own, others⟩ := List.map_eq_cons_iff.mp whole
  have sameSize := congrArg List.length others
  rw [List.length_map, Scopes.ids, List.length_map] at sameSize
  exact ⟨scope, outer, opened, own, by rw [State.loopParting, sameSize], others⟩

/-- The loop opens its scope; the other execution comes to a declaration event with it. -/
theorem begin
    (numbered : start.Numbered)
    (alone : start.stack = [])
    (control : Control)
    (code : control.values = []) :
    ∃ numbers,
      InLoop start none numbers
        ((start.withScopes start.scopes.push).goto control)
        (start.entered.goto control) := by
  let gaps : Gaps := ⟨[], [start.nextBirth], by simp⟩
  let numbers := Renumbering.across gaps
  let begun := (start.withScopes start.scopes.push).goto control
  have between : GapsBetween start begun gaps :=
    ⟨by simp [gaps], List.forall_mem_singleton.mpr ⟨Nat.le_refl _, Nat.le_refl _⟩⟩
  have opens
      {good : Value → Prop}
      (holds : start.Holds good) :
      begun.Holds good :=
    (holds.stores.withScopes holds.stores.scopes.push).goto (by simp [code])
  have known := opens numbered.values
  have values : begun.Holds (numbers.Agree .same) :=
    known.mono fun value isKnown =>
      (between.fixes.value isKnown).trans value.renumbered_same.symm
  have scopes : start.scopes.push.renumbered numbers = start.scopes.push :=
    Scopes.renumbered_of_same (fun _ => rfl) values.stores.scopes
  have level : 0 = begun.stack.countP Frame.closes := by
    change 0 = start.stack.countP Frame.closes
    rw [alone]
    rfl
  refine ⟨numbers, numbered.scopes.started, ⟨known.mono ?_, numbered.scopes.push⟩, known.mono ?_,
    ⟨[], rfl, level⟩, Nat.le_refl _, .whole between, start.scopes.push, ?_, ?_⟩
  · intro value isKnown closure isFunction
    exact (isKnown closure isFunction).imp_left Nat.lt_succ_of_lt
  · intro value isKnown closure isFunction
    exact Nat.ne_of_lt (isKnown closure isFunction).1
  · have whole :
        Scopes.Follows numbers none start.scopes.push (start.scopes.push.renumbered numbers) :=
      .whole _
    rwa [scopes] at whole
  · have world : start.world.renumbered numbers = start.world :=
      (World.renumbered_congr values.stores.world).trans (World.renumbered_same _)
    have birth : numbers.birth start.nextBirth = start.nextBirth + 1 :=
      beyond_cons_of_le (Nat.le_refl _)
    unfold State.entered State.renumbered State.withScopes State.goto
    dsimp only
    rw [world, birth, alone, Control.renumbered_of_code code]
    rfl

/-- Where two renumberings differ in the scope of the loop only, all values keep their numbers. -/
theorem agree
    {whole parted : Renumbering}
    (inLoop : InLoop start parting numbers state other)
    (agree : whole.AgreeBut start.scopes.next state.scopes.next state.nextBirth parted) :
    state.Holds (whole.Agree parted) :=
  inLoop.numbered.values.combine inLoop.avoids fun _ known avoids => agree.value known avoids

/-- A turn begins in the other execution: it opens a scope and comes to a declaration event. -/
theorem part
    (inLoop : InLoop start none numbers state other)
    (alone : state.stack = [])
    (control : Control)
    (code : control.values = []) :
    ∃ parted,
      InLoop start (some start.loopParting) parted
        (state.goto control)
        (other.entered.goto control) := by
  have gone := inLoop.goto control code
  obtain ⟨scope, outer, top, own, parting, _⟩ := inLoop.innermost (by rw [alone]; rfl)
  obtain ⟨scopes, follows, rfl⟩ := inLoop.follows
  cases follows.eq_renumbered
  cases inLoop.numbering with
  | @whole gaps between =>
      have inner := inLoop.numbered.scopes.started
      have later := between.more inner inLoop.opened inLoop.births
      let more := gaps.more state.scopes.next state.nextBirth inner
      have free : ∀ id, (Renumbering.across more).scope id ≠ beyond gaps.scopes state.scopes.next :=
        beyond_cons_ne
      let parted := (Renumbering.across more).redirected start.scopes.next _ inLoop.started free
      have agree :
          (Renumbering.across gaps).AgreeBut start.scopes.next state.scopes.next state.nextBirth
            parted :=
        (Renumbering.AgreeBut.more gaps inner).redirected inLoop.started free
      have values := inLoop.agree agree
      have ownScope : (Renumbering.across more).scope start.scopes.next = start.scopes.next :=
        later.scope_eq (Nat.le_refl _)
      have target : parted.scope start.scopes.next = beyond gaps.scopes state.scopes.next :=
        if_pos rfl
      have next : parted.scope state.scopes.next = beyond gaps.scopes state.scopes.next + 1 :=
        (if_neg (Nat.ne_of_gt inLoop.opened)).trans (beyond_cons_of_le (Nat.le_refl _))
      have unused (id : Nat) : parted.scope id ≠ start.scopes.next := by
        by_cases isOwn : id = start.scopes.next
        · rw [isOwn, target]
          exact fun same => free _ (ownScope.trans same.symm)
        · have notOwn : parted.scope id = (Renumbering.across more).scope id := if_neg isOwn
          rw [notOwn]
          exact fun same =>
            isOwn ((Renumbering.across more).scope_injective (same.trans ownScope.symm))
      have pushed := Scopes.Follows.part inLoop.numbered.scopes top own agree values.stores.scopes
        (between.scope_eq (Nat.le_refl _)) target next unused
      have numbering : Numbering start state (some start.loopParting) parted :=
        .parted later inLoop.started free
      refine ⟨parted, gone.started, gone.numbered, gone.avoids, gone.atop, gone.births,
        numbering.mono (Nat.le_refl _) (Nat.le_refl _), _, parting ▸ pushed, ?_⟩
      have sameWorld : state.world.renumbered (.across gaps) = state.world.renumbered parted :=
        World.renumbered_congr values.stores.world
      have birth : parted.birth state.nextBirth = beyond gaps.births state.nextBirth + 1 :=
        beyond_cons_of_le (Nat.le_refl _)
      unfold State.entered State.renumbered State.withScopes State.goto
      dsimp only
      rw [sameWorld, birth, alone, Control.renumbered_of_code code]
      rfl

/-- A turn is over in the other execution, which closes the scope that it has opened. -/
theorem join
    {parting : Parting}
    (inLoop : InLoop start (some parting) numbers state other)
    (alone : state.stack = [])
    (isResult : state.control.isResult = true) :
    ∃ whole, InLoop start none whole state (other.withScopes other.scopes.pop) := by
  obtain ⟨scope, outer, top, own, isParting, _⟩ := inLoop.innermost (by rw [alone]; rfl)
  obtain ⟨scopes, follows, rfl⟩ := inLoop.follows
  cases inLoop.numbering with
  | @parted gaps target between inner free =>
      let whole := Renumbering.across gaps
      have agree :
          whole.AgreeBut start.scopes.next state.scopes.next state.nextBirth
            (whole.redirected start.scopes.next target inner free) :=
        (Renumbering.AgreeBut.refl whole).redirected inner free
      have values := inLoop.agree agree
      have kept : whole.scope start.scopes.next = start.scopes.next :=
        between.scope_eq (Nat.le_refl _)
      have next :
          (whole.redirected start.scopes.next target inner free).scope state.scopes.next =
            whole.scope state.scopes.next :=
        if_neg (Nat.ne_of_gt inLoop.opened)
      rw [isParting] at follows
      have popped :=
        follows.join inLoop.numbered.scopes top own agree values.stores.scopes kept next
      refine ⟨whole, inLoop.started, inLoop.numbered, inLoop.avoids, inLoop.atop, inLoop.births,
        .whole between, _, .whole state.scopes, ?_⟩
      have sameWorld := World.renumbered_congr values.stores.world
      have sameControl := Control.renumbered_congr isResult values.control
      unfold State.renumbered State.withScopes
      dsimp only
      rw [← popped, ← sameWorld, ← sameControl, alone]
      rfl

end InLoop

end LedSketch.Machine
