import LedSketch.Proofs.Script.ScopeHistory

namespace LedSketch.Script

/-!
# Laws of scopes

Whatever has been done with a stack of scopes, a lookup goes outward to the innermost scope
that declares the name, a write changes one binding, and a scope can be reached exactly as
long as it has not been closed.
-/

namespace Scopes

section Reach

variable {initial : Bindings} {later earlier : List Action} {scope : Scope}
variable {above below : List Scope}

/-- A scope that is still where it was on the stack, with what was under it. -/
def Stays
    (scope : Scope)
    (below : List Scope)
    (scopes : Scopes) :
    Prop :=
  ∃ newer, scopes.stack.map Scope.link = newer ++ scope.link :: below.map Scope.link

/-- A scope that is open no longer, and will not be again. -/
structure Gone
    (scope : Scope)
    (scopes : Scopes) :
    Prop where
  numbered : scope.id < scopes.next
  closed : scopes.isOpen scope.id = false

/-- An action keeps the links, opens one more scope, or closes the innermost one. -/
theorem links_perform
    (scopes : Scopes)
    (action : Action) :
    ((scopes.perform action).stack.map Scope.link = scopes.stack.map Scope.link ∧
        (scopes.perform action).next = scopes.next) ∨
      (∃ parent,
        (scopes.perform action).stack.map Scope.link =
            (scopes.next, parent) :: scopes.stack.map Scope.link ∧
          (scopes.perform action).next = scopes.next + 1) ∨
      (scopes.perform action).stack.map Scope.link = (scopes.stack.map Scope.link).drop 1 ∧
        (scopes.perform action).next = scopes.next := by
  cases action with
  | push parent =>
      unfold perform
      dsimp only
      split
      · exact .inr (.inl ⟨some parent, rfl, rfl⟩)
      · exact .inl ⟨rfl, rfl⟩
  | pop => exact .inr (.inr ⟨List.map_drop, rfl⟩)
  | declare into name value => exact .inl ⟨links_declareIn, rfl⟩
  | set source name value =>
      unfold perform
      dsimp only
      cases found : scopes.setFrom? source name value with
      | none => exact .inl ⟨rfl, rfl⟩
      | some changed => exact .inl (links_setFrom? found).symm
  | get => exact .inl ⟨rfl, rfl⟩
  | upgrade => exact .inl ⟨rfl, rfl⟩

variable {scopes : Scopes}

theorem Stays.isOpen (stays : Stays scope below scopes) : scopes.isOpen scope.id = true := by
  obtain ⟨newer, whole⟩ := stays
  rw [isOpen_iff_mem_links, whole]
  simp [Scope.link]

theorem Stays.length_lt (stays : Stays scope below scopes) :
    below.length < scopes.stack.length := by
  obtain ⟨newer, whole⟩ := stays
  have sameLength := congrArg List.length whole
  simp only [List.length_map, List.length_append, List.length_cons] at sameLength
  omega

/-- Scopes above another are not around it. -/
theorem Stays.enclosing_eq
    (stays : Stays scope below scopes)
    (ordered : scopes.Ordered) :
    scopes.enclosing scope.id =
      Script.enclosing (scope.link :: below.map Scope.link) scope.id := by
  obtain ⟨newer, whole⟩ := stays
  have falling := ordered.falling
  rw [whole] at falling
  unfold enclosing
  rw [whole]
  have greater : ∀ link ∈ newer, scope.id < link.1 := fun link member =>
    (List.pairwise_append.mp falling).2.2 link member scope.link List.mem_cons_self
  clear whole falling
  induction newer with
  | nil => rfl
  | cons link newer inductionHypothesis =>
      obtain ⟨first, others⟩ := List.forall_mem_cons.mp greater
      rw [List.cons_append, Script.enclosing, if_neg (Nat.ne_of_gt first)]
      exact inductionHypothesis others

/-- A scope stays until it is itself the innermost one that is closed. -/
theorem Stays.perform
    (stays : Stays scope below scopes)
    (ordered : scopes.Ordered)
    (action : Action) :
    Stays scope below (scopes.perform action) ∨
      Gone scope (scopes.perform action) ∧
        (scopes.perform action).stack.length ≤ below.length := by
  have isOpen := stays.isOpen
  obtain ⟨newer, whole⟩ := stays
  obtain ⟨sameLinks, _⟩ | ⟨parent, oneMore, _⟩ | ⟨dropped, sameNext⟩ := links_perform scopes action
  · exact .inl ⟨newer, sameLinks.trans whole⟩
  · exact .inl ⟨(scopes.next, parent) :: newer, oneMore.trans (congrArg _ whole)⟩
  · rw [whole] at dropped
    cases newer with
    | cons link newer => exact .inl ⟨newer, dropped⟩
    | nil =>
        have isBelow : (scopes.perform action).stack.map Scope.link = below.map Scope.link :=
          dropped
        have falling := ordered.falling
        rw [whole, List.nil_append, List.pairwise_cons] at falling
        refine .inr ⟨⟨sameNext ▸ ordered.lt_of_isOpen isOpen, ?_⟩, ?_⟩
        · rw [← Bool.not_eq_true, isOpen_iff_mem_links, isBelow]
          intro member
          obtain ⟨link, isLink, same⟩ := List.mem_map.mp member
          exact Nat.ne_of_lt (falling.1 link isLink) same
        · have sameLength := congrArg List.length isBelow
          rw [List.length_map, List.length_map] at sameLength
          exact Nat.le_of_eq sameLength

theorem Gone.perform
    (gone : Gone scope scopes)
    (action : Action) :
    Gone scope (scopes.perform action) := by
  have closed := gone.closed
  rw [← Bool.not_eq_true, isOpen_iff_mem_links] at closed
  obtain ⟨sameLinks, sameNext⟩ | ⟨parent, oneMore, oneUp⟩ | ⟨dropped, sameNext⟩ :=
    links_perform scopes action
  · refine ⟨sameNext ▸ gone.numbered, ?_⟩
    rw [← Bool.not_eq_true, isOpen_iff_mem_links, sameLinks]
    exact closed
  · refine ⟨oneUp ▸ Nat.lt_succ_of_lt gone.numbered, ?_⟩
    rw [← Bool.not_eq_true, isOpen_iff_mem_links, oneMore, List.map_cons, List.mem_cons]
    exact not_or.mpr ⟨Nat.ne_of_lt gone.numbered, closed⟩
  · refine ⟨sameNext ▸ gone.numbered, ?_⟩
    rw [← Bool.not_eq_true, isOpen_iff_mem_links, dropped, List.map_drop]
    exact fun member => closed (List.mem_of_mem_drop member)

/-- A scope is open as long as the stack has not been cut down to what was under it. -/
theorem stays_or_gone
    (opened : (after initial earlier).stack = above ++ scope :: below)
    (later : List Action) :
    (Stays scope below (after initial (later ++ earlier)) ∧
        ∀ part, part <:+ later →
          below.length < (after initial (part ++ earlier)).stack.length) ∨
      (Gone scope (after initial (later ++ earlier)) ∧
        ∃ part, part <:+ later ∧
          (after initial (part ++ earlier)).stack.length ≤ below.length) := by
  induction later with
  | nil =>
      have stays : Stays scope below (after initial ([] ++ earlier)) :=
        ⟨above.map Scope.link, by rw [List.nil_append, opened, List.map_append, List.map_cons]⟩
      refine .inl ⟨stays, fun part isPart => ?_⟩
      rw [List.suffix_nil.mp isPart]
      exact stays.length_lt
  | cons action later inductionHypothesis =>
      obtain ⟨stays, deep⟩ | ⟨gone, part, isPart, short⟩ := inductionHypothesis
      · obtain stays | ⟨gone, short⟩ :=
          stays.perform (Recorded.of_history initial (later ++ earlier)).ordered action
        · refine .inl ⟨stays, fun part isPart => ?_⟩
          obtain rfl | older := List.suffix_cons_iff.mp isPart
          · exact stays.length_lt
          · exact deep part older
        · exact .inr ⟨gone, action :: later, List.suffix_refl _, short⟩
      · exact .inr ⟨gone.perform action, part, List.suffix_cons_iff.mpr (.inr isPart), short⟩

end Reach

section Laws

variable {initial : Bindings} {history : List Action}

/-- To declare a name changes its owner only where the new declaration is seen. -/
theorem find?_or_eq
    {around : List Nat}
    {owns : Nat → Bool}
    {id : Nat}
    (unseen : around.find? (fun outer => decide (outer = id) || owns outer) ≠ some id) :
    around.find? (fun outer => decide (outer = id) || owns outer) = around.find? owns := by
  induction around with
  | nil => rfl
  | cons outer further inductionHypothesis =>
      by_cases isHere : outer = id
      · rw [List.find?_cons, isHere] at unseen
        simp at unseen
      · rw [List.find?_cons] at unseen ⊢
        simp only [isHere, decide_false, Bool.false_or] at unseen ⊢
        rw [List.find?_cons]
        cases isOwner : owns outer with
        | true => rfl
        | false =>
            rw [isOwner] at unseen
            exact inductionHypothesis unseen

/-- What a lookup finds after a name has been declared in an open scope. -/
theorem getFrom?_declareIn
    {id : Nat}
    (isOpen : (after initial history).isOpen id = true)
    (name : String)
    (value : Value)
    (other : Nat)
    (key : String) :
    ((after initial history).declareIn id name value).getFrom? other key =
      if key = name ∧ owner? initial name (.declare id name value :: history) other = some id then
        some value
      else
        (after initial history).getFrom? other key := by
  have found := (Recorded.of_history initial (.declare id name value :: history)).getFrom?_eq
    other key
  change ((after initial history).declareIn id name value).getFrom? other key = _ at found
  rw [found, (Recorded.of_history initial history).getFrom?_eq]
  have sameAround (outer : Nat) :
      (after initial (.declare id name value :: history)).enclosing outer =
        (after initial history).enclosing outer :=
    congrArg (Script.enclosing · outer) links_declareIn
  by_cases same : key = name
  · subst same
    have declared :
        declares initial key (.declare id key value :: history) =
          fun outer => decide (outer = id) || declares initial key history outer := by
      funext outer
      rw [declares, isOpen]
      simp [eq_comm]
    by_cases isOwner : owner? initial key (.declare id key value :: history) other = some id
    · rw [if_pos ⟨rfl, isOwner⟩, isOwner, Option.bind_some, latest?_declare, if_pos]
      exact ⟨isOpen, rfl, rfl⟩
    · rw [if_neg fun both => isOwner both.2]
      have sameOwner :
          owner? initial key (.declare id key value :: history) other =
            owner? initial key history other := by
        unfold owner? at isOwner ⊢
        rw [sameAround, declared] at isOwner ⊢
        exact find?_or_eq isOwner
      rw [sameOwner] at isOwner ⊢
      cases isFound : owner? initial key history other with
      | none => rfl
      | some owner =>
          have different : id ≠ owner := by
            rintro rfl
            exact isOwner isFound
          rw [Option.bind_some, Option.bind_some, latest?_declare, if_neg]
          exact fun all => different all.2.1
  · rw [if_neg fun both => same both.1]
    have declared :
        declares initial key (.declare id name value :: history) =
          declares initial key history := by
      funext outer
      rw [declares]
      simp [Ne.symm same]
    have sameOwner :
        owner? initial key (.declare id name value :: history) other =
          owner? initial key history other := by
      unfold owner?
      rw [sameAround, declared]
    rw [sameOwner]
    refine Option.bind_congr fun owner _ => ?_
    rw [latest?_declare, if_neg]
    exact fun all => same all.2.2.symm

/-- Around a scope are scopes with smaller numbers only. -/
theorem le_of_enclosing
    {links : List (Nat × Option Nat)}
    (outward : ∀ link ∈ links, ∀ parent ∈ link.2, parent < link.1)
    {id outer : Nat}
    (around : outer ∈ Script.enclosing links id) :
    outer ≤ id := by
  induction links generalizing id with
  | nil => contradiction
  | cons link rest inductionHypothesis =>
      obtain ⟨number, parent⟩ := link
      obtain ⟨first, others⟩ := List.forall_mem_cons.mp outward
      rw [Script.enclosing] at around
      split at around
      · next same =>
          obtain rfl | further := List.mem_cons.mp around
          · exact Nat.le_refl _
          · cases parent with
            | none => contradiction
            | some parent =>
                have smaller := first parent rfl
                rw [same] at smaller
                exact Nat.le_of_lt (Nat.lt_of_le_of_lt (inductionHypothesis others further) smaller)
      · exact inductionHypothesis others around

/-- The innermost scope around an open one is that scope itself. -/
theorem enclosing_eq_cons
    {links : List (Nat × Option Nat)}
    {id outer : Nat}
    (around : outer ∈ Script.enclosing links id) :
    ∃ further, Script.enclosing links id = id :: further := by
  induction links with
  | nil => contradiction
  | cons link rest inductionHypothesis =>
      obtain ⟨number, parent⟩ := link
      rw [Script.enclosing] at around ⊢
      split at around
      · next same => exact ⟨_, if_pos same⟩
      · next different =>
          rw [if_neg different]
          exact inductionHypothesis around

/-- No scope is around those that are properly around it. -/
theorem not_mem_enclosing_outer
    {id outer : Nat}
    (around : outer ∈ (after initial history).enclosing id)
    (proper : outer ≠ id) :
    id ∉ (after initial history).enclosing outer := by
  intro inside
  have outward := (Recorded.of_history initial history).ordered.outward
  exact proper (Nat.le_antisymm (le_of_enclosing outward around) (le_of_enclosing outward inside))

/-- The innermost scope declares as any other does. -/
theorem declareIn_current
    {scopes : Scopes}
    (ordered : scopes.Ordered)
    (name : String)
    (value : Value) :
    scopes.declareIn scopes.current name value = scopes.declare name value := by
  obtain ⟨stack, next⟩ := scopes
  cases stack with
  | nil => rfl
  | cons scope outer =>
      have smaller : ∀ other ∈ outer, other.id ≠ scope.id := fun other member =>
        Nat.ne_of_lt ((List.pairwise_cons.mp ordered.falling).1 _ (List.mem_map_of_mem member))
      have rebound : Scope.rebind name value scope.id (scope :: outer) =
          { scope with bindings := Bindings.put name value scope.bindings } :: outer :=
        List.cons_eq_cons.mpr ⟨if_pos rfl, Scope.rebind_eq_self smaller⟩
      exact congrArg (fun stack => (⟨stack, next⟩ : Scopes)) rebound

/-- What is true of scopes after a history. -/
structure Lawful (initial : Bindings) (history : List Action) : Prop where
  /-- A lookup finds what was last written in the innermost scope that declares the name. -/
  get :
    ∀ id name,
      (after initial history).getFrom? id name =
        (owner? initial name history id).bind (latest? initial name history)
  absent :
    ∀ id name,
      (after initial history).getFrom? id name = none ↔
        ∀ outer ∈ (after initial history).enclosing id,
          declares initial name history outer = false
  /-- A name can be set exactly where it is found. -/
  setSucceeds :
    ∀ id name value,
      ((after initial history).setFrom? id name value).isSome =
        ((after initial history).getFrom? id name).isSome
  /-- To set a name changes one binding, and the lookups that find it. -/
  setChanges :
    ∀ id name value changed,
      (after initial history).setFrom? id name value = some changed →
      ∃ owner,
        owner? initial name history id = some owner ∧
          (∀ other key,
            changed.bindingIn? other key =
              if other = owner ∧ key = name then
                some value
              else
                (after initial history).bindingIn? other key) ∧
          ∀ other key,
            changed.getFrom? other key =
              if key = name ∧ owner? initial name history other = some owner then
                some value
              else
                (after initial history).getFrom? other key
  /-- To declare a name makes one binding, and changes the lookups that see it. -/
  declareChanges :
    ∀ id name value,
      (after initial history).isOpen id = true →
      (∀ other key,
        ((after initial history).declareIn id name value).bindingIn? other key =
          if other = id ∧ key = name then
            some value
          else
            (after initial history).bindingIn? other key) ∧
        ∀ other key,
          ((after initial history).declareIn id name value).getFrom? other key =
            if key = name ∧
                owner? initial name (.declare id name value :: history) other = some id then
              some value
            else
              (after initial history).getFrom? other key
  /-- The scopes around one that declares a name keep what they bind and what they see. -/
  shadowed :
    ∀ id name value changed outer key,
      changed = (after initial history).declareIn id name value ∨
          declares initial name history id = true ∧
            (after initial history).setFrom? id name value = some changed →
      outer ∈ (after initial history).enclosing id →
      outer ≠ id →
      changed.bindingIn? outer key = (after initial history).bindingIn? outer key ∧
        changed.getFrom? outer key = (after initial history).getFrom? outer key
  /-- The machine declares and sets in the innermost scope. -/
  innermost :
    ∀ name value,
      (after initial history).declareIn (after initial history).current name value =
          (after initial history).declare name value ∧
        (after initial history).setFrom? (after initial history).current name value =
          (after initial history).set? name value
  /-- A scope that is opened is a new one, under the scope that was asked for. -/
  opened :
    ∀ parent,
      (after initial history).isOpen parent = true →
      let id := (after initial history).next
      (after initial history).isOpen id = false ∧
        (after initial (.push parent :: history)).current = id ∧
        (after initial (.push parent :: history)).isOpen id = true ∧
        (after initial (.push parent :: history)).enclosing id =
          id :: (after initial history).enclosing parent
  /--
  A scope that was open once is open as long as the stack has not been cut down to what was
  under it, and as long as it is open, the same scopes are around it.
  -/
  upgrade :
    ∀ later earlier above scope below,
      history = later ++ earlier →
      (after initial earlier).stack = above ++ scope :: below →
      ((after initial history).isOpen scope.id = true ↔
          ∀ part, part <:+ later →
            below.length < (after initial (part ++ earlier)).stack.length) ∧
        ((after initial history).isOpen scope.id = true →
          (after initial history).enclosing scope.id =
            (after initial earlier).enclosing scope.id)

section Proofs

variable (initial : Bindings) (history : List Action)

theorem getFrom?_eq_none_iff
    (id : Nat)
    (name : String) :
    (after initial history).getFrom? id name = none ↔
      ∀ outer ∈ (after initial history).enclosing id,
        declares initial name history outer = false := by
  have recorded := Recorded.of_history initial history
  rw [recorded.getFrom?_eq]
  cases found : owner? initial name history id with
  | none =>
      have undeclared := List.find?_eq_none.mp found
      simpa using undeclared
  | some owner =>
      have around := List.mem_of_find?_eq_some found
      have isDeclared : declares initial name history owner = true := List.find?_some found
      have isBound := recorded.declared owner name
      rw [isDeclared] at isBound
      constructor
      · intro missing
        rw [Option.bind_some] at missing
        rw [missing] at isBound
        contradiction
      · intro undeclared
        rw [undeclared owner around] at isDeclared
        contradiction

theorem isSome_setFrom?
    (id : Nat)
    (name : String)
    (value : Value) :
    ((after initial history).setFrom? id name value).isSome =
      ((after initial history).getFrom? id name).isSome := by
  have recorded := Recorded.of_history initial history
  rw [recorded.setFrom?_eq, recorded.getFrom?_eq]
  cases found : owner? initial name history id with
  | none => rfl
  | some owner =>
      have isDeclared : declares initial name history owner = true := List.find?_some found
      rw [recorded.declared] at isDeclared
      exact isDeclared.symm

variable {initial : Bindings} {history : List Action}
variable {id : Nat} {name : String} {value : Value} {changed : Scopes}

/-- Where a name is set, it is in its owner. -/
theorem exists_of_setFrom?
    (stored : (after initial history).setFrom? id name value = some changed) :
    ∃ owner,
      owner? initial name history id = some owner ∧
        changed =
          { after initial history with
            stack := Scope.rebind name value owner (after initial history).stack } := by
  rw [(Recorded.of_history initial history).setFrom?_eq] at stored
  obtain ⟨owner, isOwner, same⟩ := Option.map_eq_some_iff.mp stored
  exact ⟨owner, isOwner, same.symm⟩

/-- What a lookup finds after a name has been set. -/
theorem getFrom?_of_setFrom?
    {owner : Nat}
    (stored : (after initial history).setFrom? id name value = some changed)
    (isOwner : owner? initial name history id = some owner)
    (other : Nat)
    (key : String) :
    changed.getFrom? other key =
      if key = name ∧ owner? initial name history other = some owner then
        some value
      else
        (after initial history).getFrom? other key := by
  have isAfter : after initial (.set id name value :: history) = changed := by
    rw [after, perform, stored]
    rfl
  have found := (Recorded.of_history initial (.set id name value :: history)).getFrom?_eq other key
  have sameAround :
      (after initial (.set id name value :: history)).enclosing other =
        (after initial history).enclosing other := by
    rw [isAfter]
    exact congrArg (Script.enclosing · other) (links_setFrom? stored).2
  have sameOwner :
      owner? initial key (.set id name value :: history) other =
        owner? initial key history other :=
    congrArg (List.find? (declares initial key history)) sameAround
  rw [isAfter, sameOwner] at found
  rw [found, (Recorded.of_history initial history).getFrom?_eq]
  cases isFound : owner? initial key history other with
  | none =>
      rw [if_neg]
      · rfl
      · rintro ⟨rfl, isOther⟩
        rw [isFound] at isOther
        contradiction
  | some around =>
      rw [Option.bind_some, Option.bind_some, latest?_set]
      by_cases same : key = name
      · subst same
        rw [isFound, isOwner]
        simp [eq_comm]
      · rw [if_neg fun both => same both.1.symm, if_neg fun both => same both.1]

theorem bindingIn?_of_setFrom?
    {owner : Nat}
    (stored : (after initial history).setFrom? id name value = some changed)
    (isOwner : owner? initial name history id = some owner)
    (other : Nat)
    (key : String) :
    changed.bindingIn? other key =
      if other = owner ∧ key = name then
        some value
      else
        (after initial history).bindingIn? other key := by
  obtain ⟨found, isFound, rfl⟩ := exists_of_setFrom? stored
  rw [isOwner] at isFound
  obtain rfl := Option.some.inj isFound
  exact bindingIn?_rebind (Recorded.isOpen_owner isOwner) other key

/-- What is around a scope that declares a name does not see the name there. -/
theorem owner?_outer_ne
    {actions : List Action}
    {outer : Nat}
    (sameAround : (after initial actions).enclosing outer = (after initial history).enclosing outer)
    (around : outer ∈ (after initial history).enclosing id)
    (proper : outer ≠ id) :
    owner? initial name actions outer ≠ some id := by
  intro isOwner
  have inside := List.mem_of_find?_eq_some isOwner
  rw [sameAround] at inside
  exact not_mem_enclosing_outer around proper inside

theorem shadowed_declareIn
    {outer : Nat}
    (around : outer ∈ (after initial history).enclosing id)
    (proper : outer ≠ id)
    (key : String) :
    ((after initial history).declareIn id name value).bindingIn? outer key =
        (after initial history).bindingIn? outer key ∧
      ((after initial history).declareIn id name value).getFrom? outer key =
        (after initial history).getFrom? outer key := by
  obtain ⟨further, whole⟩ := enclosing_eq_cons around
  have isOpen : (after initial history).isOpen id = true :=
    isOpen_iff_mem_links.mpr (mem_links_of_enclosing (whole ▸ List.mem_cons_self))
  have sameAround :
      (after initial (.declare id name value :: history)).enclosing outer =
        (after initial history).enclosing outer :=
    congrArg (Script.enclosing · outer) links_declareIn
  constructor
  · exact (bindingIn?_rebind isOpen outer key).trans (if_neg fun both => proper both.1)
  · rw [getFrom?_declareIn isOpen, if_neg]
    exact fun both => owner?_outer_ne sameAround around proper both.2

theorem shadowed_setFrom?
    {outer : Nat}
    (isDeclared : declares initial name history id = true)
    (stored : (after initial history).setFrom? id name value = some changed)
    (around : outer ∈ (after initial history).enclosing id)
    (proper : outer ≠ id)
    (key : String) :
    changed.bindingIn? outer key = (after initial history).bindingIn? outer key ∧
      changed.getFrom? outer key = (after initial history).getFrom? outer key := by
  obtain ⟨further, whole⟩ := enclosing_eq_cons around
  have isOwner : owner? initial name history id = some id := by
    unfold owner? enclosing
    rw [whole, List.find?_cons, isDeclared]
  constructor
  · exact (bindingIn?_of_setFrom? stored isOwner outer key).trans (if_neg fun both => proper both.1)
  · rw [getFrom?_of_setFrom? stored isOwner, if_neg]
    exact fun both => owner?_outer_ne rfl around proper both.2

theorem opened_push
    {parent : Nat}
    (isOpen : (after initial history).isOpen parent = true) :
    let id := (after initial history).next
    (after initial history).isOpen id = false ∧
      (after initial (.push parent :: history)).current = id ∧
      (after initial (.push parent :: history)).isOpen id = true ∧
      (after initial (.push parent :: history)).enclosing id =
        id :: (after initial history).enclosing parent := by
  intro id
  have ordered := (Recorded.of_history initial history).ordered
  have pushed : after initial (.push parent :: history) =
      (after initial history).pushUnder parent := if_pos isOpen
  rw [pushed]
  refine ⟨Bool.eq_false_iff.mpr fun already => ?_, rfl, ?_, if_pos rfl⟩
  · exact Nat.lt_irrefl _ (ordered.lt_of_isOpen already)
  · exact isOpen_iff_mem_links.mpr List.mem_cons_self

theorem reached
    {earlier later : List Action}
    {above below : List Scope}
    {scope : Scope}
    (opened : (after initial earlier).stack = above ++ scope :: below) :
    ((after initial (later ++ earlier)).isOpen scope.id = true ↔
        ∀ part, part <:+ later →
          below.length < (after initial (part ++ earlier)).stack.length) ∧
      ((after initial (later ++ earlier)).isOpen scope.id = true →
        (after initial (later ++ earlier)).enclosing scope.id =
          (after initial earlier).enclosing scope.id) := by
  obtain ⟨stays, deep⟩ | ⟨gone, part, isPart, short⟩ := stays_or_gone opened later
  · have stayed : Stays scope below (after initial earlier) :=
      ⟨above.map Scope.link, by rw [opened, List.map_append, List.map_cons]⟩
    refine ⟨⟨fun _ => deep, fun _ => stays.isOpen⟩, fun _ => ?_⟩
    rw [stays.enclosing_eq (Recorded.of_history initial _).ordered,
      stayed.enclosing_eq (Recorded.of_history initial _).ordered]
  · have closed := Bool.eq_false_iff.mp gone.closed
    refine ⟨⟨fun isOpen => (closed isOpen).elim, fun deep => ?_⟩,
      fun isOpen => (closed isOpen).elim⟩
    exact (Nat.not_lt_of_le short (deep part isPart)).elim

end Proofs

/--
Scopes keep their laws over any history.  From every open scope a lookup finds the value that
was last declared or set for the name in the innermost enclosing scope that declares it, and
nothing if there is none.  A name can be set exactly where it is found; to set it or to
declare it changes one binding, only the lookups that find it there, and never a binding that
it shadows.  A scope can be reached from when it is opened to when it is closed, even if
others are opened and closed above it, and a later one never takes its place.
-/
theorem laws_over_history
    (initial : Bindings)
    (history : List Action) :
    Lawful initial history where
  get := (Recorded.of_history initial history).getFrom?_eq
  absent := getFrom?_eq_none_iff initial history
  setSucceeds := isSome_setFrom? initial history
  setChanges id name value changed stored := by
    obtain ⟨owner, isOwner, _⟩ := exists_of_setFrom? stored
    exact ⟨owner, isOwner, bindingIn?_of_setFrom? stored isOwner,
      getFrom?_of_setFrom? stored isOwner⟩
  declareChanges id name value isOpen :=
    ⟨bindingIn?_rebind isOpen, getFrom?_declareIn isOpen name value⟩
  shadowed id name value changed outer key written around proper := by
    obtain rfl | ⟨isDeclared, stored⟩ := written
    · exact shadowed_declareIn around proper key
    · exact shadowed_setFrom? isDeclared stored around proper key
  innermost name value :=
    ⟨declareIn_current (Recorded.of_history initial history).ordered name value, rfl⟩
  opened _ isOpen := opened_push isOpen
  upgrade later earlier above scope below whole opened := by
    subst whole
    exact reached opened

/-- A name is set through two scopes, past a binding that is shadowed. -/
example :
    let history : List Action :=
      [.pop, .set 2 "x" (.int 7), .push 1, .declare 1 "x" (.int 5), .push 0,
        .declare 0 "x" (.int 1)]
    (after [] history).getFrom? 1 "x" = some (.int 7) ∧
      (after [] history).getFrom? 0 "x" = some (.int 1) ∧
      (after [] history).isOpen 2 = false :=
  ⟨rfl, rfl, rfl⟩

end Laws

end Scopes

end LedSketch.Script
