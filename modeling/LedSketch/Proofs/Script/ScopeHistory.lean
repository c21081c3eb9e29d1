import LedSketch.Proofs.Script.OrderedScopes

namespace LedSketch.Script

/-!
# Scopes over a history

A history lists what has been done with a stack of scopes, the last action first.  It tells
which scopes declare a name and what was last written where, without a look at any bindings.
The stack agrees with it: a lookup finds what was last written in the innermost enclosing
scope that declares the name.  Actions may concern any open scope; the machine declares and
assigns in the innermost one.
-/

/-- The numbers of the scopes around the scope of a number, from that one outward. -/
def enclosing : List (Nat × Option Nat) → Nat → List Nat
  | [], _ => []
  | (number, parent) :: outer, id =>
      if number = id then
        id :: parent.elim [] fun parent => enclosing outer parent
      else
        enclosing outer id

namespace Scope

/-- A scope in which a name has been bound, if it is the one of a number. -/
def bind
    (name : String)
    (value : Value)
    (owner : Nat)
    (scope : Scope) :
    Scope :=
  if scope.id = owner then
    { scope with bindings := Bindings.put name value scope.bindings }
  else
    scope

/-- The scopes with a name bound in the one of a number. -/
def rebind
    (name : String)
    (value : Value)
    (owner : Nat)
    (stack : List Scope) :
    List Scope :=
  stack.map (bind name value owner)

section Bind

variable (name : String) (value : Value) (owner : Nat) (scope : Scope)

/-- A binding changes no scope's number and none's parent. -/
@[simp] theorem link_bind : (bind name value owner scope).link = scope.link := by
  unfold bind
  split <;> rfl

/-- A binding is found under its name in its scope only. -/
theorem get?_bind (key : String) :
    Bindings.get? key (bind name value owner scope).bindings =
      if scope.id = owner ∧ key = name then
        some value
      else
        Bindings.get? key scope.bindings := by
  unfold bind
  by_cases isOwner : scope.id = owner
  · by_cases same : key = name
    · simp [isOwner, same]
    · simp [isOwner, same, Bindings.get?_put_other same]
  · simp [isOwner]

end Bind

/-- To bind a name anew leaves the scopes linked as they are. -/
theorem links_rebind
    (name : String)
    (value : Value)
    (owner : Nat)
    (stack : List Scope) :
    (rebind name value owner stack).map link = stack.map link := by
  simp [rebind]

/-- Scopes without the owner are left as they are. -/
theorem rebind_eq_self
    {name : String}
    {value : Value}
    {owner : Nat}
    {stack : List Scope}
    (absent : ∀ scope ∈ stack, scope.id ≠ owner) :
    rebind name value owner stack = stack :=
  (List.map_congr_left fun scope member => if_neg (absent scope member)).trans
    (List.map_id' stack)

end Scope

namespace Scopes

/-- The numbers of the open scopes around the scope of a number. -/
def enclosing
    (scopes : Scopes)
    (id : Nat) :
    List Nat :=
  Script.enclosing (scopes.stack.map Scope.link) id

/-- What the scope of a number itself binds a name to. -/
def bindingIn?
    (scopes : Scopes)
    (id : Nat)
    (name : String) :
    Option Value :=
  (scopes.stack.find? fun scope => scope.id = id).bind fun scope =>
    Bindings.get? name scope.bindings

/-- Bind a name in the scope of a number. -/
def declareIn
    (scopes : Scopes)
    (id : Nat)
    (name : String)
    (value : Value) :
    Scopes :=
  { scopes with stack := Scope.rebind name value id scopes.stack }

/-- Change the binding of a name that the scope of a number sees, if there is one. -/
def setFrom?
    (scopes : Scopes)
    (id : Nat)
    (name : String)
    (value : Value) :
    Option Scopes :=
  (Scope.assign? name value scopes.stack id).map fun stack => { scopes with stack }

/-- What is done with a stack of scopes; a scope is meant by its number. -/
inductive Action where
  /-- Open a scope under another one, if that can still be reached. -/
  | push (parent : Nat)
  | pop
  | declare (into : Nat) (name : String) (value : Value)
  | set (source : Nat) (name : String) (value : Value)
  | get (source : Nat) (name : String)
  /-- Ask whether a scope can still be reached. -/
  | upgrade (id : Nat)

/-- The scopes after an action. -/
def perform
    (scopes : Scopes) :
    Action → Scopes
  | .push parent => if scopes.isOpen parent then scopes.pushUnder parent else scopes
  | .pop => scopes.pop
  | .declare into name value => scopes.declareIn into name value
  | .set source name value => (scopes.setFrom? source name value).getD scopes
  | .get .. => scopes
  | .upgrade _ => scopes

section History

variable (initial : Bindings) (name : String)

/-- The scopes after a history that began with a single one. -/
def after : List Action → Scopes
  | [] => .ofBindings initial
  | action :: earlier => (after earlier).perform action

/-- Whether a name has been declared in the scope of a number. -/
def declares : List Action → Nat → Bool
  | [], id => id = globalId && (Bindings.get? name initial).isSome
  | .declare into key _ :: earlier, id =>
      (into = id && key = name && (after initial earlier).isOpen into) || declares earlier id
  | _ :: earlier, id => declares earlier id

/-- The innermost scope around the one of a number that declares a name. -/
def owner?
    (history : List Action)
    (id : Nat) :
    Option Nat :=
  ((after initial history).enclosing id).find? (declares initial name history)

/-- Where an action writes a name, and what, after what has been done before it. -/
def written?
    (earlier : List Action) :
    Action → Option (Nat × Value)
  | .declare into key value =>
      if key = name ∧ (after initial earlier).isOpen into then some (into, value) else none
  | .set source key value =>
      if key = name then
        (owner? initial name earlier source).map fun owner => (owner, value)
      else
        none
  | _ => none

/-- The value that was last declared or set for a name in the scope of a number. -/
def latest? : List Action → Nat → Option Value
  | [], id => if id = globalId then Bindings.get? name initial else none
  | action :: earlier, id =>
      match written? initial name earlier action with
      | some (into, value) => if into = id then some value else latest? earlier id
      | none => latest? earlier id

end History

end Scopes

section Lookup

variable {stack : List Scope} {links : List (Nat × Option Nat)} {name : String} {id : Nat}

/-- Only open scopes are around others. -/
theorem mem_links_of_enclosing
    {outer : Nat}
    (around : outer ∈ enclosing links id) :
    outer ∈ links.map Prod.fst := by
  induction links generalizing id with
  | nil => contradiction
  | cons link rest inductionHypothesis =>
      obtain ⟨number, parent⟩ := link
      unfold enclosing at around
      split at around
      · next same =>
          obtain rfl | further := List.mem_cons.mp around
          · rw [← same]
            exact List.mem_cons_self
          · cases parent with
            | none => contradiction
            | some parent => exact List.mem_cons_of_mem _ (inductionHypothesis further)
      · exact List.mem_cons_of_mem _ (inductionHypothesis around)

/-- A lookup goes outward to the first scope with a value. -/
theorem lookup_eq_findSome?
    {valueOf : Nat → Option Value}
    (id : Nat)
    (same : ∀ scope ∈ stack, Bindings.get? name scope.bindings = valueOf scope.id) :
    Scope.lookup name stack id = (enclosing (stack.map Scope.link) id).findSome? valueOf := by
  induction stack generalizing id with
  | nil => rfl
  | cons scope outer inductionHypothesis =>
      obtain ⟨first, others⟩ := List.forall_mem_cons.mp same
      unfold Scope.lookup
      rw [List.map_cons, Scope.link, enclosing]
      split
      · next isHere =>
          rw [isHere] at first
          rw [first]
          cases bound : valueOf id with
          | some value => simp only [List.findSome?, bound]
          | none =>
              cases scope.parent with
              | none => simp only [List.findSome?, bound, Option.elim]
              | some parent =>
                  simp only [List.findSome?, bound, Option.elim]
                  exact inductionHypothesis _ others
      · exact inductionHypothesis _ others

/-- An assignment goes outward to the first scope with a value, and changes that one only. -/
theorem assign?_eq_rebind
    {valueOf : Nat → Option Value}
    (value : Value)
    (id : Nat)
    (falling : (stack.map Scope.link).Pairwise fun inner outer => outer.1 < inner.1)
    (same : ∀ scope ∈ stack, Bindings.get? name scope.bindings = valueOf scope.id) :
    Scope.assign? name value stack id =
      ((enclosing (stack.map Scope.link) id).find? fun outer => (valueOf outer).isSome).map
        fun owner => Scope.rebind name value owner stack := by
  induction stack generalizing id with
  | nil => rfl
  | cons scope outer inductionHypothesis =>
      obtain ⟨first, others⟩ := List.forall_mem_cons.mp same
      obtain ⟨above, falling⟩ := List.pairwise_cons.mp falling
      have smaller : ∀ other ∈ outer, other.id < scope.id :=
        fun other member => above other.link (List.mem_map_of_mem member)
      -- What is found further out leaves the first scope as it is.
      have onward (further : Nat) :
          (Scope.assign? name value outer further).map (scope :: ·) =
            ((enclosing (outer.map Scope.link) further).find?
                fun outer => (valueOf outer).isSome).map
              fun owner => Scope.rebind name value owner (scope :: outer) := by
        rw [inductionHypothesis _ falling others, Option.map_map]
        refine Option.map_congr fun owner found => ?_
        obtain ⟨link, member, rfl⟩ :=
          List.mem_map.mp (mem_links_of_enclosing (List.mem_of_find?_eq_some found))
        have different : scope.id ≠ link.1 := Nat.ne_of_gt (above link member)
        have kept : Scope.bind name value link.1 scope = scope := if_neg different
        simp only [Function.comp_apply, Scope.rebind, List.map_cons, kept]
      unfold Scope.assign?
      rw [List.map_cons, Scope.link, enclosing]
      split
      · next isHere =>
          rw [isHere] at first
          rw [first]
          cases bound : valueOf id with
          | some held =>
              have here :
                  Scope.rebind name value id (scope :: outer) =
                    { scope with bindings := Bindings.put name value scope.bindings } :: outer :=
                List.cons_eq_cons.mpr ⟨if_pos isHere, Scope.rebind_eq_self fun other member =>
                  Nat.ne_of_lt (isHere ▸ smaller other member)⟩
              simp only [List.find?, bound, Option.isSome_some, Option.map_some, here]
          | none =>
              cases scope.parent with
              | none =>
                  simp only [List.find?, bound, Option.isSome_none, Option.elim, Option.map_none]
              | some parent =>
                  simp only [List.find?, bound, Option.isSome_none, Option.elim]
                  exact onward parent
      · exact onward id

end Lookup

namespace Scopes

section Actions

variable {scopes changed : Scopes} {id : Nat} {name : String} {value : Value}

/-- A declaration leaves the scopes linked as they are. -/
theorem links_declareIn :
    (scopes.declareIn id name value).stack.map Scope.link = scopes.stack.map Scope.link :=
  Scope.links_rebind name value id scopes.stack

/-- An assignment leaves the scopes linked as they are. -/
theorem links_setFrom? (found : scopes.setFrom? id name value = some changed) :
    changed.next = scopes.next ∧
      changed.stack.map Scope.link = scopes.stack.map Scope.link := by
  obtain ⟨stack, inStack, rfl⟩ := Option.map_eq_some_iff.mp found
  exact ⟨rfl, Scope.links_assign? inStack⟩

/-- A scope is open if it is linked. -/
theorem isOpen_iff_mem_links :
    scopes.isOpen id = true ↔ id ∈ (scopes.stack.map Scope.link).map Prod.fst := by
  rw [isOpen_iff, List.map_map]
  rfl

theorem Ordered.of_links
    (ordered : scopes.Ordered)
    (sameNext : changed.next = scopes.next)
    (sameLinks : changed.stack.map Scope.link = scopes.stack.map Scope.link) :
    changed.Ordered := by
  unfold Ordered
  rw [sameNext, sameLinks]
  exact ordered

/-- Scopes stay in order under every action. -/
theorem Ordered.perform
    (ordered : scopes.Ordered)
    (action : Action) :
    (scopes.perform action).Ordered := by
  cases action with
  | push parent =>
      unfold Scopes.perform
      dsimp only
      split
      · next isOpen => exact ordered.pushUnder (ordered.lt_of_isOpen isOpen)
      · exact ordered
  | pop => exact ordered.pop
  | declare into name value => exact ordered.of_links rfl links_declareIn
  | set source name value =>
      unfold Scopes.perform
      dsimp only
      cases found : scopes.setFrom? source name value with
      | none => exact ordered
      | some changed =>
          obtain ⟨sameNext, sameLinks⟩ := links_setFrom? found
          exact ordered.of_links sameNext sameLinks
  | get => exact ordered
  | upgrade => exact ordered

/-- Of what the scopes themselves bind, a write changes one binding. -/
theorem bindingIn?_rebind
    {owner : Nat}
    (isOpen : scopes.isOpen owner = true)
    (other : Nat)
    (key : String) :
    bindingIn? { scopes with stack := Scope.rebind name value owner scopes.stack } other key =
      if other = owner ∧ key = name then some value else scopes.bindingIn? other key := by
  have sameId (scope : Scope) : (Scope.bind name value owner scope).id = scope.id :=
    congrArg Prod.fst (Scope.link_bind name value owner scope)
  unfold bindingIn? Scope.rebind
  rw [List.find?_map]
  simp only [Function.comp_def, sameId]
  cases found : scopes.stack.find? fun scope => scope.id = other with
  | none =>
      have closed : other ≠ owner := by
        rintro rfl
        obtain ⟨scope, member, isOwner⟩ := List.any_eq_true.mp isOpen
        exact List.find?_eq_none.mp found scope member isOwner
      simp [closed]
  | some scope =>
      have isOther : scope.id = other := by simpa using List.find?_some found
      simp only [Option.map_some, Option.bind_some, Scope.get?_bind, isOther]

end Actions

section Latest

variable (initial : Bindings) (name key : String) (value : Value) (earlier : List Action)

/-- The latest value of a name in a scope is that of its declaration there. -/
theorem latest?_declare (into id : Nat) :
    latest? initial name (.declare into key value :: earlier) id =
      if (after initial earlier).isOpen into ∧ into = id ∧ key = name then
        some value
      else
        latest? initial name earlier id := by
  rw [latest?, written?]
  by_cases writes : key = name ∧ (after initial earlier).isOpen into
  · obtain ⟨rfl, isOpen⟩ := writes
    by_cases same : into = id
    · subst same
      simp [isOpen]
    · simp [isOpen, same]
  · have elsewhere : ¬ ((after initial earlier).isOpen into ∧ into = id ∧ key = name) :=
      fun ⟨isOpen, _, isName⟩ => writes ⟨isName, isOpen⟩
    rw [if_neg writes, if_neg elsewhere]

/-- The latest value of a name in a scope is that of an assignment which found it there. -/
theorem latest?_set (source id : Nat) :
    latest? initial name (.set source key value :: earlier) id =
      if key = name ∧ owner? initial name earlier source = some id then
        some value
      else
        latest? initial name earlier id := by
  rw [latest?, written?]
  by_cases same : key = name
  · cases owner? initial name earlier source <;> simp [same]
  · simp [same]

end Latest

/-- Scopes that agree with their history. -/
structure Recorded (initial : Bindings) (history : List Action) : Prop where
  ordered : (after initial history).Ordered
  bindings :
    ∀ scope ∈ (after initial history).stack, ∀ name,
      Bindings.get? name scope.bindings = latest? initial name history scope.id
  declared :
    ∀ id name, declares initial name history id = (latest? initial name history id).isSome
  fresh :
    ∀ id name, (after initial history).next ≤ id → latest? initial name history id = none

namespace Recorded

variable {initial : Bindings} {history : List Action}

/-- A name has the latest value in the scope that owns it. -/
theorem getFrom?_eq
    (recorded : Recorded initial history)
    (id : Nat)
    (name : String) :
    (after initial history).getFrom? id name =
      (owner? initial name history id).bind (latest? initial name history) := by
  have found := lookup_eq_findSome? id fun scope member =>
    recorded.bindings scope member name
  refine found.trans ?_
  unfold owner? enclosing
  generalize Script.enclosing _ id = around
  induction around with
  | nil => rfl
  | cons outer further inductionHypothesis =>
      have isDeclared := recorded.declared outer name
      cases value : latest? initial name history outer with
      | none =>
          rw [value] at isDeclared
          rw [List.findSome?_cons, value, List.find?_cons, isDeclared]
          exact inductionHypothesis
      | some found =>
          rw [value] at isDeclared
          rw [List.findSome?_cons, value, List.find?_cons, isDeclared]
          exact value.symm

/-- An assignment binds the name anew in the scope that owns it. -/
theorem setFrom?_eq
    (recorded : Recorded initial history)
    (id : Nat)
    (name : String)
    (value : Value) :
    (after initial history).setFrom? id name value =
      (owner? initial name history id).map fun owner =>
        { after initial history with
          stack := Scope.rebind name value owner (after initial history).stack } := by
  have found := assign?_eq_rebind value id recorded.ordered.falling fun scope member =>
    recorded.bindings scope member name
  have declared : declares initial name history = fun id =>
      (latest? initial name history id).isSome :=
    funext fun id => recorded.declared id name
  unfold setFrom? owner? enclosing
  rw [found, Option.map_map, declared]
  rfl

theorem isOpen_owner
    {id owner : Nat}
    {name : String}
    (found : owner? initial name history id = some owner) :
    (after initial history).isOpen owner = true :=
  isOpen_iff_mem_links.mpr (mem_links_of_enclosing (List.mem_of_find?_eq_some found))

/-- At first only the first bindings are recorded. -/
theorem start : Recorded initial [] where
  ordered := .ofBindings initial
  bindings := List.forall_mem_singleton.mpr fun _ => rfl
  declared id name := by
    unfold declares latest?
    by_cases isGlobal : id = globalId <;> simp [isGlobal]
  fresh id name above := by
    have inner : id ≠ globalId := Nat.ne_of_gt (Nat.lt_of_lt_of_le Nat.zero_lt_one above)
    exact if_neg inner

/-- A scope that is opened is recorded. -/
theorem push
    (recorded : Recorded initial history)
    (parent : Nat) :
    Recorded initial (.push parent :: history) where
  ordered := recorded.ordered.perform (.push parent)
  bindings := by
    have opened := recorded.fresh (after initial history).next
    unfold after perform
    dsimp only
    split
    · exact List.forall_mem_cons.mpr
        ⟨fun name => (opened name (Nat.le_refl _)).symm, recorded.bindings⟩
    · exact recorded.bindings
  declared := recorded.declared
  fresh id name above := by
    refine recorded.fresh id name ?_
    unfold after perform at above
    dsimp only at above
    split at above
    · exact Nat.le_of_succ_le above
    · exact above

/-- A scope that is closed is recorded. -/
theorem pop (recorded : Recorded initial history) : Recorded initial (.pop :: history) where
  ordered := recorded.ordered.pop
  bindings scope member := recorded.bindings scope (List.mem_of_mem_drop member)
  declared := recorded.declared
  fresh := recorded.fresh

/-- A declaration is recorded. -/
theorem declare
    (recorded : Recorded initial history)
    (into : Nat)
    (key : String)
    (value : Value) :
    Recorded initial (.declare into key value :: history) where
  ordered := recorded.ordered.perform (.declare into key value)
  bindings := by
    intro changed member name
    obtain ⟨scope, isOld, rfl⟩ := List.mem_map.mp member
    have sameId : (Scope.bind key value into scope).id = scope.id :=
      congrArg Prod.fst (Scope.link_bind key value into scope)
    rw [Scope.get?_bind, sameId, latest?_declare, recorded.bindings scope isOld name]
    by_cases isInto : scope.id = into
    · have isOpen : (after initial history).isOpen into = true := by
        rw [← isInto, isOpen_iff]
        exact List.mem_map_of_mem isOld
      simp [isInto, isOpen, eq_comm]
    · simp [isInto, Ne.symm isInto]
  declared id name := by
    rw [latest?_declare]
    rw [declares]
    by_cases writes : (after initial history).isOpen into ∧ into = id ∧ key = name
    · obtain ⟨isOpen, rfl, rfl⟩ := writes
      simp [isOpen]
    · rw [if_neg writes, ← recorded.declared id name, Bool.or_eq_right_iff_imp]
      intro declaredHere
      simp only [Bool.and_eq_true, decide_eq_true_eq] at declaredHere
      exact (writes ⟨declaredHere.2, declaredHere.1⟩).elim
  fresh id name above := by
    rw [latest?_declare, if_neg, recorded.fresh id name above]
    rintro ⟨isOpen, rfl, _⟩
    exact Nat.not_le_of_lt (recorded.ordered.lt_of_isOpen isOpen) above

/-- A setting of a name that no scope declares does nothing. -/
theorem set_missing
    {source : Nat}
    {key : String}
    (recorded : Recorded initial history)
    (missing : owner? initial key history source = none)
    (value : Value) :
    Recorded initial (.set source key value :: history) := by
  have sameScopes : after initial (.set source key value :: history) = after initial history := by
    rw [after, perform, recorded.setFrom?_eq, missing]
    rfl
  have sameLatest (name : String) (id : Nat) :
      latest? initial name (.set source key value :: history) id =
        latest? initial name history id := by
    rw [latest?_set, if_neg]
    rintro ⟨rfl, isOwner⟩
    rw [missing] at isOwner
    contradiction
  refine ⟨sameScopes ▸ recorded.ordered, ?_, ?_, ?_⟩ <;> simp only [sameLatest]
  · exact sameScopes ▸ recorded.bindings
  · exact recorded.declared
  · exact sameScopes ▸ recorded.fresh

/-- An assignment to a name that is found is recorded. -/
theorem set_found
    {source owner : Nat}
    {key : String}
    (recorded : Recorded initial history)
    (found : owner? initial key history source = some owner)
    (value : Value) :
    Recorded initial (.set source key value :: history) where
  ordered := recorded.ordered.perform (.set source key value)
  bindings := by
    rw [after, perform, recorded.setFrom?_eq, found]
    intro changed member name
    obtain ⟨scope, isOld, rfl⟩ := List.mem_map.mp member
    have sameId : (Scope.bind key value owner scope).id = scope.id :=
      congrArg Prod.fst (Scope.link_bind key value owner scope)
    rw [Scope.get?_bind, sameId, latest?_set, recorded.bindings scope isOld name]
    by_cases same : key = name
    · subst same
      simp [found, eq_comm]
    · simp [same, Ne.symm same]
  declared id name := by
    rw [latest?_set]
    have isDeclared : declares initial key history owner = true := List.find?_some found
    change declares initial name history id = _
    split
    · next writes =>
        obtain ⟨rfl, isOwner⟩ := writes
        rw [found] at isOwner
        rw [← Option.some.inj isOwner]
        exact isDeclared
    · exact recorded.declared id name
  fresh id name above := by
    have sameNext : (after initial (.set source key value :: history)).next =
        (after initial history).next := by
      rw [after, perform, recorded.setFrom?_eq, found]
      rfl
    rw [sameNext] at above
    rw [latest?_set, if_neg, recorded.fresh id name above]
    rintro ⟨rfl, isOwner⟩
    exact Nat.not_le_of_lt (recorded.ordered.lt_of_isOpen (isOpen_owner isOwner)) above

/-- Every history is agreed with. -/
theorem of_history
    (initial : Bindings)
    (history : List Action) :
    Recorded initial history := by
  induction history with
  | nil => exact start
  | cons action earlier recorded =>
      cases action with
      | push parent => exact recorded.push parent
      | pop => exact recorded.pop
      | declare into key value => exact recorded.declare into key value
      | set source key value =>
          cases found : owner? initial key earlier source with
          | none => exact recorded.set_missing found value
          | some owner => exact recorded.set_found found value
      | get => exact ⟨recorded.ordered, recorded.bindings, recorded.declared, recorded.fresh⟩
      | upgrade => exact ⟨recorded.ordered, recorded.bindings, recorded.declared, recorded.fresh⟩

end Recorded

end Scopes

end LedSketch.Script
