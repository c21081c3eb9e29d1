import LedSketch.Proofs.Machine.Elements
import LedSketch.Proofs.Simulation.Chronicle

namespace LedSketch

/-!
# Arrays keep their lengths

No step of a run changes the length of an array.  So an element that has been resolved is
one whatever runs until it is used: it is read as the item that it is, and what is stored
in it stays there until something else is stored in it.
-/

open Script (BinaryOp Fixity Value)

namespace Machine

/-- The array and the position of the element that the next step stores in. -/
def State.storedElement? (state : State) : Option (Nat × Nat) :=
  match state.stores? with
  | some (.element id position, _) => some (id, position)
  | _ => none

theorem State.storedElement?_of_stores?
    {state : State}
    {id position : Nat}
    {value : Value}
    (stores : state.stores? = some (.element id position, value)) :
    state.storedElement? = some (id, position) := by
  rw [storedElement?, stores]

/-- The element that the next step stores an integer in, with the integer. -/
def State.storedInt? (state : State) : Option (Nat × Nat × Int64) :=
  match state.stores? with
  | some (.element id position, .int value) => some (id, position, value)
  | _ => none

theorem State.stores?_of_storedInt?
    {state : State}
    {id position : Nat}
    {value : Int64}
    (stores : state.storedInt? = some (id, position, value)) :
    state.stores? = some (.element id position, .int value) := by
  unfold storedInt? at stores
  split at stores
  · next isInt =>
      cases stores
      exact isInt
  · contradiction

/-- What a run has kept of its arrays. -/
structure KeptArrays (past : List State) (state : State) : Prop where
  grounded : ∀ earlier ∈ past ++ [state], earlier.Grounded
  lengths :
    ∀ earlier ∈ past,
      ∀ id,
        earlier.world.heap.Has id →
        state.world.heap.Has id ∧ state.world.heap.length id = earlier.world.heap.length id
  items :
    ∀ before writing between id position value,
      past = before ++ writing :: between →
      writing.stores? = some (.element id position, value) →
      (∀ later ∈ between, later.storedElement? ≠ some (id, position)) →
      state.world.heap.get? id position = some value

namespace KeptArrays

variable {past : List State} {state : State}

theorem now (kept : KeptArrays past state) : state.Grounded :=
  kept.grounded state (by simp)

theorem step (kept : KeptArrays past state) : KeptArrays (past ++ [state]) state.step where
  grounded :=
    List.forall_mem_append.mpr
      ⟨kept.grounded, List.forall_mem_singleton.mpr kept.now.step⟩
  lengths := by
    refine List.forall_mem_append.mpr ⟨?_, List.forall_mem_singleton.mpr ?_⟩
    · intro earlier member id has
      obtain ⟨hasNow, same⟩ := kept.lengths earlier member id has
      obtain ⟨hasNext, sameNext⟩ := kept.now.length_step hasNow
      exact ⟨hasNext, sameNext.trans same⟩
    · exact fun id has => kept.now.length_step has
  items before writing between id position value whole stores untouched := by
    obtain ⟨rfl, rfl, rfl⟩ | ⟨others, rfl, rfl⟩ := split_last whole
    · exact kept.now.get?_step_of_stores stores
    · obtain ⟨earlier, last⟩ := List.forall_mem_append.mp untouched
      refine kept.now.get?_step (kept.items _ _ _ _ _ _ rfl stores earlier) ?_
      intro other storesOther
      exact last state List.mem_cons_self (State.storedElement?_of_stores? storesOther)

/-- A run that rests or wakes up keeps its arrays. -/
theorem resumed
    {other : State}
    (kept : KeptArrays past state)
    (grounded : other.Grounded)
    (same : other.world.heap = state.world.heap) :
    KeptArrays past other where
  grounded :=
    List.forall_mem_append.mpr
      ⟨(List.forall_mem_append.mp kept.grounded).1, List.forall_mem_singleton.mpr grounded⟩
  lengths := by
    rw [same]
    exact kept.lengths
  items := by
    rw [same]
    exact kept.items

theorem lasting : Lasting KeptArrays where
  step kept := kept.step
  attach host _ kept := kept.resumed (kept.now.attach host) rfl
  wake host _ kept := kept.resumed (kept.now.wake host) rfl

end KeptArrays

/--
The arrays of a run at a moment.  They have the lengths that they had whenever they were
there before, and the next step leaves them so.  An element that has been resolved at any
moment is still one; what reads it finds its item, and what assigns to it stores its value,
which is the item until something is stored in that element again.
-/
structure ArraysLast (past : List State) (state : State) : Prop where
  lengths :
    ∀ earlier ∈ past,
      ∀ id,
        earlier.world.heap.Has id →
        state.world.heap.Has id ∧ state.world.heap.length id = earlier.world.heap.length id
  onward :
    ∀ id,
      state.world.heap.Has id →
      state.step.world.heap.Has id ∧
        state.step.world.heap.length id = state.world.heap.length id
  resolved :
    ∀ earlier ∈ past ++ [state],
      ∀ id position,
        earlier.Targets (.element id position) → position < state.world.heap.length id
  reads :
    ∀ id position line,
      state.control = .use (.element id position) (.read line) →
      ∃ item, state.world.heap.get? id position = some item ∧ state.step = state.give item
  assigns :
    ∀ id position line value rest,
      state.control = .value value →
      state.stack = .assignedValue line none (.element id position) :: rest →
      state.step.control = .value value ∧
        state.step.world.heap.get? id position = some value
  combines :
    ∀ id position line op value rest,
      state.control = .value value →
      state.stack = .assignedValue line (some op) (.element id position) :: rest →
      ∃ current,
        state.world.heap.get? id position = some current ∧
          ∀ result,
            Value.binary state.world.heap op current value = .ok result →
            state.step.control = .value result ∧
              state.step.world.heap.get? id position = some result
  updates :
    ∀ id position line direction fixity,
      state.control = .use (.element id position) (.update line direction fixity) →
      ∃ current,
        state.world.heap.get? id position = some current ∧
          ∀ updated,
            Value.binary state.world.heap (stepOperator direction) current (.int 1) =
                .ok updated →
            state.step.control = .value (stepResult fixity current updated) ∧
              state.step.world.heap.get? id position = some updated
  stores :
    ∀ id position value,
      state.stores? = some (.element id position, value) →
      state.step.world.heap.get? id position = some value
  items :
    ∀ before writing between id position value,
      past = before ++ writing :: between →
      writing.stores? = some (.element id position, value) →
      (∀ later ∈ between, later.storedElement? ≠ some (id, position)) →
      state.world.heap.get? id position = some value

theorem KeptArrays.last
    {past : List State}
    {state : State}
    (kept : KeptArrays past state) :
    ArraysLast past state where
  lengths := kept.lengths
  onward id has := kept.now.length_step has
  resolved := by
    obtain ⟨grounded, now⟩ := List.forall_mem_append.mp kept.grounded
    refine List.forall_mem_append.mpr ⟨?_, ?_⟩
    · intro earlier member id position targets
      have within : position < earlier.world.heap.length id :=
        (grounded earlier member).isIn targets
      rw [(kept.lengths earlier member id (Script.Heap.has_of_lt_length within)).2]
      exact within
    · exact List.forall_mem_singleton.mpr fun id position targets => kept.now.isIn targets
  reads _ _ _ := kept.now.read_element
  assigns _ _ _ _ _ := kept.now.assign_element
  combines _ _ _ _ _ _ := kept.now.combine_element
  updates _ _ _ _ _ := kept.now.update_element
  stores _ _ _ := kept.now.get?_step_of_stores
  items := kept.items

end Machine

namespace Chronicle

/--
Arrays keep their lengths and lose no write, at every moment of every run: whatever is
evaluated, called, waited for or handled in between.
-/
theorem arrays_last
    (config : Config)
    (generation : UInt64)
    (source : String)
    (hosts : List Host)
    (past : List Machine.State)
    (state : Machine.State)
    (moment : ((start generation source).follow config hosts).Moment past state) :
    Machine.ArraysLast past state := by
  have kept : Machine.KeptArrays past state := by
    refine moment.lasting Machine.KeptArrays.lasting fun program host _ => ?_
    exact ⟨List.forall_mem_singleton.mpr (.begin config program host), by simp, by simp⟩
  exact kept.last

/-- A handler stores in an array while another element of it waits for its value. -/
theorem arrays_last_around_delay :
    ∃ (config : Config) (hosts : List Host) (chronicle : Chronicle)
      (before between : List Machine.State) (writing state : Machine.State),
      chronicle =
          (start 1
            "let a=[1,2];function p()\x7ba[1]=5;\x7dcreateButton(1).onClick(p);a[0]=[delay(9),7][1];").follow
            config hosts ∧
        chronicle.Moment (before ++ writing :: between) state ∧
        writing.stores? = some (.element 0 1, .int 5) ∧
        (∀ later ∈ between, later.storedElement? ≠ some (0, 1)) ∧
        state.stores? = some (.element 0 0, .int 7) ∧
        state.world.heap.get? 0 1 = some (.int 5) ∧
        state.step.world.heap.get? 0 0 = some (.int 7) := by
  let config : Config := ⟨1, none, .grb, 1000⟩
  let hosts : List Host := [⟨true, .empty, #[], #[]⟩, ⟨true, ⟨[0]⟩, #[], #[]⟩]
  let sketch :=
    "let a=[1,2];function p()\x7ba[1]=5;\x7dcreateButton(1).onClick(p);a[0]=[delay(9),7][1];"
  obtain ⟨handled, untouched, assigned⟩ :
      (((start 1 sketch).follow config hosts).states.take 91)[75]?.bind
            Machine.State.storedInt? = some (0, 1, 5) ∧
        ((((start 1 sketch).follow config hosts).states.take 91).drop 76).all
            (fun later => later.storedElement? != some (0, 1)) = true ∧
        ((start 1 sketch).follow config hosts).states[91]?.bind
            Machine.State.storedInt? = some (0, 0, 7) := by
    decide +kernel
  have applied := arrays_last config 1 sketch hosts
  -- From here on the run stands for itself, so that nothing makes it go through its steps.
  generalize made : (start 1 sketch).follow config hosts = chronicle at *
  obtain ⟨state, found, storesLast⟩ := Option.bind_eq_some_iff.mp assigned
  obtain ⟨writing, isWriting, stores⟩ := Option.bind_eq_some_iff.mp handled
  have moment : chronicle.Moment (chronicle.states.take 91) state := .of_getElem? found
  generalize chronicle.states.take 91 = past at *
  obtain ⟨within, rfl⟩ := List.getElem?_eq_some_iff.mp isWriting
  have whole : past = past.take 75 ++ past[75] :: past.drop 76 := by
    rw [← List.drop_eq_getElem_cons within]
    exact (List.take_append_drop 75 past).symm
  have untouched :
      ∀ later ∈ past.drop 76, later.storedElement? ≠ some (0, 1) := fun later member =>
    bne_iff_ne.mp (List.all_eq_true.mp untouched later member)
  have storesFive := Machine.State.stores?_of_storedInt? stores
  have storesSeven := Machine.State.stores?_of_storedInt? storesLast
  have last := applied past state moment
  have five := last.items _ _ _ 0 1 _ whole storesFive untouched
  have seven := last.stores 0 0 _ storesSeven
  rw [whole] at moment
  exact ⟨config, hosts, chronicle, _, _, _, state, made.symm, moment, storesFive, untouched,
    storesSeven, five, seven⟩

end Chronicle

end LedSketch
