import LedSketch.Proofs.Script.FollowedScopes
import LedSketch.Proofs.Script.OrderedScopes

namespace LedSketch.Script

/-!
# Parted scopes

A run that opens more scopes than another one, and comes to more declaration events, gives
the same numbers but for the gaps that these leave.  If it opens an empty scope inside an
innermost one, that one is parted, and when the empty scope is closed it is whole again.
-/

/-- What a number becomes if at each of the gaps one number is left out. -/
def beyond
    (gaps : List Nat)
    (number : Nat) :
    Nat :=
  number + gaps.countP (· ≤ number)

section Beyond

variable {gaps : List Nat} {gap number left right : Nat}

theorem beyond_lt (smaller : left < right) : beyond gaps left < beyond gaps right := by
  refine Nat.add_lt_add_of_lt_of_le smaller (List.countP_mono_left fun gap _ isGap => ?_)
  have below : gap ≤ left := of_decide_eq_true isGap
  exact decide_eq_true (Nat.le_trans below (Nat.le_of_lt smaller))

theorem beyond_injective (same : beyond gaps left = beyond gaps right) : left = right := by
  obtain smaller | equal | greater := Nat.lt_trichotomy left right
  · exact (Nat.ne_of_lt (beyond_lt smaller) same).elim
  · exact equal
  · exact (Nat.ne_of_gt (beyond_lt greater) same).elim

theorem beyond_of_lt (below : ∀ gap ∈ gaps, number < gap) : beyond gaps number = number := by
  have none : gaps.countP (· ≤ number) = 0 :=
    List.countP_eq_zero.mpr fun gap isGap => by simpa using below gap isGap
  rw [beyond, none, Nat.add_zero]

theorem beyond_cons_of_lt (smaller : number < gap) :
    beyond (gap :: gaps) number = beyond gaps number := by
  rw [beyond, List.countP_cons_of_neg (by simpa using smaller), beyond]

theorem beyond_cons_of_le (greater : gap ≤ number) :
    beyond (gap :: gaps) number = beyond gaps number + 1 := by
  rw [beyond, List.countP_cons_of_pos (by simpa using greater), beyond, Nat.add_assoc]

/-- After the last gap no more numbers are left out. -/
theorem beyond_succ (past : ∀ gap ∈ gaps, gap ≤ number) :
    beyond gaps (number + 1) = beyond gaps number + 1 := by
  have all (other : Nat) (later : number ≤ other) : gaps.countP (· ≤ other) = gaps.length :=
    List.countP_eq_length.mpr fun gap isGap =>
      decide_eq_true (Nat.le_trans (past gap isGap) later)
  rw [beyond, beyond, all _ (Nat.le_refl _), all _ (Nat.le_succ _)]
  omega

/-- The number that is left out at a gap is given to nothing. -/
theorem beyond_cons_ne (number : Nat) : beyond (gap :: gaps) number ≠ beyond gaps gap := by
  obtain smaller | greater := Nat.lt_or_ge number gap
  · rw [beyond_cons_of_lt smaller]
    exact Nat.ne_of_lt (beyond_lt smaller)
  · rw [beyond_cons_of_le greater]
    obtain equal | greater := Nat.eq_or_lt_of_le greater
    · rw [equal]
      exact Nat.succ_ne_self _
    · exact Nat.ne_of_gt (Nat.lt_succ_of_lt (beyond_lt greater))

end Beyond

/-- The gaps in the numbers of scopes, and in those of declaration events. -/
structure Gaps where
  scopes : List Nat
  births : List Nat
  inner : ∀ gap ∈ scopes, Scopes.globalId < gap

/-- The gaps with one more of either kind. -/
def Gaps.more
    (gaps : Gaps)
    (scope birth : Nat)
    (inner : Scopes.globalId < scope) :
    Gaps where
  scopes := scope :: gaps.scopes
  births := birth :: gaps.births
  inner := List.forall_mem_cons.mpr ⟨inner, gaps.inner⟩

namespace Renumbering

/-- The numbers that are given with gaps. -/
def across (gaps : Gaps) : Renumbering where
  scope := beyond gaps.scopes
  birth := beyond gaps.births
  scope_injective := beyond_injective
  birth_injective := beyond_injective
  globalId := beyond_of_lt gaps.inner

/-- The numbers of which that of one scope is replaced with one that is not in use. -/
def redirected
    (numbers : Renumbering)
    (own target : Nat)
    (inner : Scopes.globalId < own)
    (free : ∀ id, numbers.scope id ≠ target) :
    Renumbering where
  scope id := if id = own then target else numbers.scope id
  birth := numbers.birth
  scope_injective {left right} same := by
    split at same <;> split at same
    · next isLeft isRight => exact isLeft.trans isRight.symm
    · exact (free right same.symm).elim
    · exact (free left same).elim
    · exact numbers.scope_injective same
  birth_injective := numbers.birth_injective
  globalId := by
    rw [if_neg (Nat.ne_of_lt inner)]
    exact numbers.globalId

/-- Renumberings that agree on smaller numbers, but for the number of one scope. -/
structure AgreeBut
    (own scopes births : Nat)
    (numbers other : Renumbering) :
    Prop where
  scope : ∀ id < scopes, id ≠ own → numbers.scope id = other.scope id
  birth : ∀ birth < births, numbers.birth birth = other.birth birth

namespace AgreeBut

variable {numbers other : Renumbering} {own scopes births : Nat}

theorem refl (numbers : Renumbering) : numbers.AgreeBut own scopes births numbers :=
  ⟨fun _ _ _ => rfl, fun _ _ => rfl⟩

/-- What is left out from now on leaves the smaller numbers as they are. -/
theorem more
    (gaps : Gaps)
    (inner : Scopes.globalId < scopes) :
    (across gaps).AgreeBut own scopes births (across (gaps.more scopes births inner)) :=
  ⟨fun _ smaller _ => (beyond_cons_of_lt smaller).symm,
    fun _ smaller => (beyond_cons_of_lt smaller).symm⟩

theorem redirected
    {target : Nat}
    (agree : numbers.AgreeBut own scopes births other)
    (inner : Scopes.globalId < own)
    (free : ∀ id, other.scope id ≠ target) :
    numbers.AgreeBut own scopes births (other.redirected own target inner free) := by
  refine ⟨fun id smaller isOther => ?_, agree.birth⟩
  unfold Renumbering.redirected
  dsimp only
  rw [if_neg isOther]
  exact agree.scope id smaller isOther

end AgreeBut

/-- The numbers of known scopes and declaration events are kept. -/
structure Fixes
    (numbers : Renumbering)
    (scopes births : Nat) :
    Prop where
  scope : ∀ id < scopes, numbers.scope id = id
  birth : ∀ birth < births, numbers.birth birth = birth

/-- Known functions stay the same, like all other values. -/
theorem Fixes.value
    {numbers : Renumbering}
    {scopes births : Nat}
    {value : Value}
    (fixes : numbers.Fixes scopes births)
    (known : value.Known scopes births) :
    value.renumbered numbers = value := by
  cases value with
  | function closure =>
      obtain ⟨scope, birth⟩ := known closure rfl
      unfold Value.renumbered Closure.renumbered
      dsimp only
      rw [fixes.scope _ scope, fixes.birth _ birth]
  | _ => rfl

end Renumbering

/-- If the value is a function, it was not declared in a given scope. -/
def Value.Avoids
    (own : Nat)
    (value : Value) :
    Prop :=
  ∀ closure, value = .function closure → closure.scope ≠ own

theorem concernsFunctions_avoids (own : Nat) : ConcernsFunctions (Value.Avoids own) :=
  fun _ noFunction closure isFunction => (noFunction closure isFunction).elim

section Agreement

variable {numbers other : Renumbering} {own scopes births : Nat}

theorem Renumbering.AgreeBut.value
    {value : Value}
    (agree : numbers.AgreeBut own scopes births other)
    (known : value.Known scopes births)
    (avoids : value.Avoids own) :
    numbers.Agree other value := by
  cases value with
  | function closure =>
      obtain ⟨scope, birth⟩ := known closure rfl
      unfold Renumbering.Agree Value.renumbered Closure.renumbered
      dsimp only
      rw [agree.scope _ scope (avoids closure rfl), agree.birth _ birth]
  | _ => rfl

end Agreement

namespace Scopes

variable {numbers parted : Renumbering} {births : Nat} {scopes other : Scopes} {scope : Scope}
variable {outer : List Scope}

/-- Scopes that are numbered without a gap, and whose values are known, keep all numbers. -/
theorem renumbered_of_same
    (scope : ∀ id, numbers.scope id = id)
    (values : scopes.Hold (numbers.Agree .same)) :
    scopes.renumbered numbers = scopes := by
  have sameStack : scopes.stack.map (Scope.renumbered numbers) = scopes.stack := by
    refine (List.map_congr_left fun opened member => ?_).trans (List.map_id' scopes.stack)
    unfold Scope.renumbered
    rw [scope, Bindings.renumbered_congr (values opened member), Bindings.renumbered_same,
      Option.map_congr (fun id _ => scope id), Option.map_id']
  unfold Scopes.renumbered
  rw [sameStack, scope]

/-- The scopes around a parted one, and what it lies under, keep their numbers. -/
theorem renumbered_around
    (ordered : scopes.Ordered)
    (opened : scopes.stack = scope :: outer)
    (agree : numbers.AgreeBut scope.id scopes.next births parted)
    (values : scopes.Hold (numbers.Agree parted)) :
    outer.map (Scope.renumbered numbers) = outer.map (Scope.renumbered parted) ∧
      scope.parent.map numbers.scope = scope.parent.map parted.scope := by
  obtain ⟨_, below, falling, outward⟩ := ordered
  unfold Hold at values
  rw [opened] at below falling outward values
  obtain ⟨ownBelow, _⟩ := List.forall_mem_cons.mp below
  obtain ⟨ownOutward, outward⟩ := List.forall_mem_cons.mp outward
  have inside := (List.pairwise_cons.mp falling).1
  have smaller {id : Nat} (isSmaller : id < scope.id) : numbers.scope id = parted.scope id :=
    agree.scope id (Nat.lt_trans isSmaller ownBelow) (Nat.ne_of_lt isSmaller)
  refine ⟨List.map_congr_left fun around member => ?_,
    Option.map_congr fun parent isParent => smaller (ownOutward parent isParent)⟩
  have enclosing : around.id < scope.id := inside around.link (List.mem_map_of_mem member)
  have parents : around.parent.map numbers.scope = around.parent.map parted.scope :=
    Option.map_congr fun parent isParent =>
      smaller (Nat.lt_trans (outward around.link (List.mem_map_of_mem member) parent isParent)
        enclosing)
  unfold Scope.renumbered
  rw [smaller enclosing, parents,
    Bindings.renumbered_congr (values around (List.mem_cons_of_mem _ member))]

namespace Follows

/-- To open an empty scope inside the innermost scope parts that one. -/
theorem part
    {own : Nat}
    (ordered : scopes.Ordered)
    (opened : scopes.stack = scope :: outer)
    (isOwn : scope.id = own)
    (agree : numbers.AgreeBut own scopes.next births parted)
    (values : scopes.Hold (numbers.Agree parted))
    (kept : numbers.scope own = own)
    (target : parted.scope own = numbers.scope scopes.next)
    (next : parted.scope scopes.next = numbers.scope scopes.next + 1)
    (free : ∀ id, parted.scope id ≠ own) :
    Follows parted (some ⟨own, outer.length + 1⟩) scopes (scopes.renumbered numbers).push := by
  subst isOwn
  obtain ⟨around, parents⟩ := renumbered_around ordered opened agree values
  have bindings : scope.bindings.renumbered numbers = scope.bindings.renumbered parted :=
    Bindings.renumbered_congr (values scope (by rw [opened]; exact List.mem_cons_self))
  refine ⟨?_, next.symm⟩
  unfold Scopes.push Scopes.pushUnder Scopes.renumbered Scopes.current
  dsimp only
  rw [opened, List.map_cons, around]
  unfold Scope.renumbered
  dsimp only
  rw [kept, parents, bindings, ← target]
  exact .parted scope rfl free (.whole outer)

/-- To close the empty scope inside a parted one makes that one whole. -/
theorem join
    {own : Nat}
    (follows : Follows parted (some ⟨own, outer.length + 1⟩) scopes other)
    (ordered : scopes.Ordered)
    (opened : scopes.stack = scope :: outer)
    (isOwn : scope.id = own)
    (agree : numbers.AgreeBut own scopes.next births parted)
    (values : scopes.Hold (numbers.Agree parted))
    (kept : numbers.scope own = own)
    (next : parted.scope scopes.next = numbers.scope scopes.next) :
    other.pop = scopes.renumbered numbers := by
  subst isOwn
  obtain ⟨around, parents⟩ := renumbered_around ordered opened agree values
  have bindings : scope.bindings.renumbered numbers = scope.bindings.renumbered parted :=
    Bindings.renumbered_congr (values scope (by rw [opened]; exact List.mem_cons_self))
  obtain ⟨others, otherNext⟩ := other
  obtain ⟨stack, sameNext⟩ := follows
  rw [opened] at stack
  unfold Scopes.pop Scopes.renumbered
  rw [opened, List.map_cons, around]
  unfold Scope.renumbered
  dsimp only
  rw [kept, parents, bindings, ← next, ← sameNext]
  cases stack with
  | above _ below => exact (Nat.lt_irrefl _ below.size).elim
  | parted _ size free below => rw [below.eq_map]; rfl

end Follows

end Scopes

end LedSketch.Script
