import LedSketch.Proofs.Script.OpenScopes

namespace LedSketch.Script

/-!
# Scopes of a caller

The scopes that a call opens lie above those of its caller, but they are opened under the
outermost scope or under each other.  So no name that is looked up from them is found in
the scopes in between, and these stay as they are.
-/

/-- The open scopes but the outermost one. -/
def Scopes.locals (scopes : Scopes) : List Scope := scopes.stack.dropLast

/-- A scope that was opened from a number on, under the outermost scope or a later one. -/
structure Scope.Since
    (bound : Nat)
    (scope : Scope) :
    Prop where
  id : bound ≤ scope.id
  parent : ∀ parent, scope.parent = some parent → parent = Scopes.globalId ∨ bound ≤ parent

/-- A scope above the outermost one that was opened before a number. -/
structure Scope.Before
    (bound : Nat)
    (scope : Scope) :
    Prop where
  inner : scope.id ≠ Scopes.globalId
  id : scope.id < bound

namespace Scope

variable {kept outer : List Scope} {bound id : Nat} {name : String} {value : Value}

/-- What lies under the outermost scope or a late one is not looked up in earlier scopes. -/
theorem assign?_between
    (earlier : ∀ scope ∈ kept, scope.Before bound)
    (seen : id = Scopes.globalId ∨ bound ≤ id) :
    assign? name value (kept ++ outer) id = (assign? name value outer id).map (kept ++ ·) := by
  induction kept with
  | nil => simp
  | cons scope rest inductionHypothesis =>
      obtain ⟨first, others⟩ := List.forall_mem_cons.mp earlier
      have different : scope.id ≠ id := by
        obtain rfl | late := seen
        · exact first.inner
        · exact Nat.ne_of_lt (Nat.lt_of_lt_of_le first.id late)
      rw [List.cons_append, assign?, if_neg different, inductionHypothesis others,
        Option.map_map]
      rfl

/-- To assign a variable changes scopes of a call and the outermost one, but no others. -/
theorem assign?_above
    {opened assigned : List Scope}
    {outermost : Scope}
    (earlier : ∀ scope ∈ kept, scope.Before bound)
    (late : ∀ scope ∈ opened, scope.Since bound)
    (seen : id = Scopes.globalId ∨ bound ≤ id)
    (found : assign? name value (opened ++ (kept ++ [outermost])) id = some assigned) :
    ∃ changed last,
      assigned = changed ++ (kept ++ [last]) ∧
        changed.length = opened.length ∧
          (∀ scope ∈ changed, scope.Since bound) ∧
            last.id = outermost.id := by
  induction opened generalizing id assigned with
  | nil =>
      rw [List.nil_append, assign?_between earlier seen] at found
      obtain ⟨rest, inOutermost, rfl⟩ := Option.map_eq_some_iff.mp found
      have ids := ids_assign? inOutermost
      cases rest with
      | nil => contradiction
      | cons last others =>
          obtain ⟨sameId, none⟩ := List.cons.inj ids
          cases List.map_eq_nil_iff.mp none
          exact ⟨[], last, rfl, rfl, by simp, sameId⟩
  | cons scope rest inductionHypothesis =>
      obtain ⟨first, others⟩ := List.forall_mem_cons.mp late
      have onward
          {parent : Nat}
          (under : parent = Scopes.globalId ∨ bound ≤ parent)
          (inRest :
            (assign? name value (rest ++ (kept ++ [outermost])) parent).map (scope :: ·) =
              some assigned) :
          ∃ changed last,
            assigned = changed ++ (kept ++ [last]) ∧
              changed.length = (scope :: rest).length ∧
                (∀ scope ∈ changed, scope.Since bound) ∧
                  last.id = outermost.id := by
        obtain ⟨onwards, inOuter, rfl⟩ := Option.map_eq_some_iff.mp inRest
        obtain ⟨changed, last, rfl, sameLength, stillLate, sameId⟩ :=
          inductionHypothesis others under inOuter
        exact ⟨scope :: changed, last, rfl, congrArg (· + 1) sameLength,
          List.forall_mem_cons.mpr ⟨first, stillLate⟩, sameId⟩
      rw [List.cons_append, assign?] at found
      split at found
      · split at found
        · cases found
          exact ⟨_ :: rest, outermost, rfl, rfl,
            List.forall_mem_cons.mpr ⟨⟨first.id, first.parent⟩, others⟩, rfl⟩
        · split at found
          · next parent isParent => exact onward (first.parent parent isParent) found
          · contradiction
      · exact onward seen found

end Scope

namespace Scopes

/-- So many scopes were opened above some kept ones, and not under one of these. -/
structure Over
    (kept : List Scope)
    (bound count : Nat)
    (scopes : Scopes) :
    Prop where
  bounded : bound ≤ scopes.next
  shape :
    ∃ opened outermost,
      scopes.stack = opened ++ (kept ++ [outermost]) ∧
        opened.length = count ∧
          (∀ scope ∈ opened, scope.Since bound) ∧
            outermost.id = globalId

namespace Over

variable {kept : List Scope} {bound count : Nat} {scopes after : Scopes}

theorem locals (above : scopes.Over kept bound count) : kept <:+ scopes.locals := by
  obtain ⟨opened, outermost, whole, _⟩ := above.shape
  unfold Scopes.locals
  rw [whole, ← List.append_assoc, List.dropLast_concat]
  exact List.suffix_append opened kept

theorem locals_eq (above : scopes.Over kept bound 0) : scopes.locals = kept := by
  obtain ⟨opened, outermost, whole, none, _⟩ := above.shape
  cases List.eq_nil_of_length_eq_zero none
  unfold Scopes.locals
  rw [whole, List.nil_append, List.dropLast_concat]

/-- A call is made over the scopes of its caller. -/
theorem of_nested (nested : scopes.Nested count) : scopes.Over scopes.locals scopes.next 0 := by
  obtain ⟨inner, whole, _⟩ := nested.inner
  refine ⟨Nat.le_refl _, [], ?_⟩
  obtain none | ⟨others, outermost, isStack⟩ := List.eq_nil_or_concat scopes.stack
  · rw [ids, none] at whole
    exact (List.append_ne_nil_of_right_ne_nil inner (List.cons_ne_nil _ _) whole.symm).elim
  · refine ⟨outermost, ?_, rfl, by simp, ?_⟩
    · unfold Scopes.locals
      rw [isStack, List.concat_eq_append, List.dropLast_concat]
      rfl
    · rw [ids, isStack, List.concat_eq_append, List.map_append] at whole
      exact (List.cons.inj (List.append_inj' whole rfl).2).1

theorem before_of_nested (nested : scopes.Nested count) :
    ∀ scope ∈ scopes.locals, scope.Before scopes.next := by
  obtain ⟨inner, whole, _, range⟩ := nested.inner
  intro scope member
  have listed : scope.id ∈ inner := by
    have dropped : scopes.locals.map Scope.id = scopes.ids.dropLast := List.map_dropLast
    rw [whole, List.dropLast_concat] at dropped
    rw [← dropped]
    exact List.mem_map_of_mem member
  exact ⟨Nat.ne_of_gt (range _ listed).1, (range _ listed).2⟩

theorem pushUnder
    {parent : Nat}
    (above : scopes.Over kept bound count)
    (under : parent = globalId ∨ bound ≤ parent) :
    (scopes.pushUnder parent).Over kept bound (count + 1) := by
  obtain ⟨opened, outermost, whole, sameLength, late, isOutermost⟩ := above.shape
  refine ⟨Nat.le_succ_of_le above.bounded, ⟨scopes.next, some parent, []⟩ :: opened, outermost,
    congrArg _ whole, congrArg (· + 1) sameLength, ?_, isOutermost⟩
  have fresh : Scope.Since bound ⟨scopes.next, some parent, []⟩ :=
    ⟨above.bounded, fun other isParent => Option.some.inj isParent ▸ under⟩
  exact List.forall_mem_cons.mpr ⟨fresh, late⟩

theorem current
    (above : scopes.Over kept bound count)
    (entered : 0 < count) :
    bound ≤ scopes.current := by
  obtain ⟨opened, outermost, whole, rfl, late, _⟩ := above.shape
  cases opened with
  | nil => contradiction
  | cons scope rest =>
      unfold Scopes.current
      rw [whole]
      exact (late scope List.mem_cons_self).id

theorem push
    (above : scopes.Over kept bound count)
    (entered : 0 < count) :
    scopes.push.Over kept bound (count + 1) :=
  above.pushUnder (.inr (above.current entered))

theorem pop (above : scopes.Over kept bound (count + 1)) : scopes.pop.Over kept bound count := by
  obtain ⟨opened, outermost, whole, sameLength, late, isOutermost⟩ := above.shape
  cases opened with
  | nil => contradiction
  | cons scope rest =>
      refine ⟨above.bounded, rest, outermost, ?_, Nat.succ.inj sameLength,
        (List.forall_mem_cons.mp late).2, isOutermost⟩
      unfold Scopes.pop
      rw [whole]
      rfl

theorem declare
    (above : scopes.Over kept bound count)
    (entered : 0 < count)
    (name : String)
    (value : Value) :
    (scopes.declare name value).Over kept bound count := by
  obtain ⟨opened, outermost, whole, sameLength, late, isOutermost⟩ := above.shape
  cases opened with
  | nil =>
      rw [← sameLength] at entered
      contradiction
  | cons scope rest =>
      obtain ⟨first, others⟩ := List.forall_mem_cons.mp late
      refine ⟨by rw [next_declare]; exact above.bounded,
        { scope with bindings := Bindings.put name value scope.bindings } :: rest, outermost,
        ?_, sameLength, List.forall_mem_cons.mpr ⟨⟨first.id, first.parent⟩, others⟩,
        isOutermost⟩
      unfold Scopes.declare
      rw [whole]
      rfl

theorem set?
    {name : String}
    {value : Value}
    (above : scopes.Over kept bound count)
    (earlier : ∀ scope ∈ kept, scope.Before bound)
    (entered : 0 < count)
    (found : scopes.set? name value = some after) :
    after.Over kept bound count := by
  have bounded : bound ≤ after.next := by
    rw [next_set? found]
    exact above.bounded
  have seen := above.current entered
  obtain ⟨opened, outermost, whole, sameLength, late, isOutermost⟩ := above.shape
  obtain ⟨assigned, inStack, rfl⟩ := Option.map_eq_some_iff.mp found
  rw [whole] at inStack
  obtain ⟨changed, last, rfl, length, stillLate, sameId⟩ :=
    Scope.assign?_above earlier late (.inr seen) inStack
  exact ⟨bounded, changed, last, rfl, length.trans sameLength, stillLate,
    sameId.trans isOutermost⟩

theorem writes
    (above : scopes.Over kept bound count)
    (earlier : ∀ scope ∈ kept, scope.Before bound)
    (entered : 0 < count)
    (writes : Writes scopes after) :
    after.Over kept bound count := by
  induction writes with
  | none => exact above
  | declare name value _ inductionHypothesis => exact inductionHypothesis.declare entered name value
  | set _ assigned inductionHypothesis => exact inductionHypothesis.set? earlier entered assigned

end Over

end Scopes

end LedSketch.Script
