import LedSketch.Pattern.Search

namespace LedSketch.Pattern

/-!
# Repetitions with one way to go

Where the body of a repetition can go only one way, a greedy repetition goes to the end of
that way and a lazy one goes as far as it has to, provided that the pattern behind the
repetition fits there.
-/

section Steps

variable {result : Type} (isWord : Char → Bool) (turns : Nat)
  (onward : Progress → Option result)

theorem search_seq
    (first second : Pattern)
    (progress : Progress) :
    search isWord turns (.seq first second) onward progress =
      search isWord turns first (search isWord turns second onward) progress :=
  rfl

theorem search_either
    (first second : Pattern)
    (progress : Progress) :
    search isWord turns (.either first second) onward progress =
      (search isWord turns first onward progress).or
        (search isWord turns second onward progress) :=
  firstOf_eq_or _ _

theorem search_many
    (appetite : Appetite)
    (body : Pattern)
    (progress : Progress) :
    search isWord turns (.many appetite body) onward progress =
      searchTurns appetite (search isWord turns body) onward turns progress :=
  rfl

theorem search_char
    (accepts : Char → Bool)
    (before : Option Char)
    (c : Char)
    (rest : List Char)
    (offset : Nat)
    (groups : List Group) :
    search isWord turns (.char accepts) onward ⟨⟨before, c :: rest, offset⟩, groups⟩ =
      if accepts c then onward ⟨⟨some c, rest, offset + 1⟩, groups⟩ else none :=
  rfl

end Steps

variable {result : Type} {body : (Progress → Option result) → Progress → Option result}
  {onward : Progress → Option result} {first after last : Progress} {found : result}

/-- Whether a body can go only one way from a place, to a later place. -/
structure OnlyTo
    (body : (Progress → Option result) → Progress → Option result)
    (first after : Progress) :
    Prop where
  search : ∀ onward, body onward first = onward after
  further : first.cursor.offset < after.cursor.offset

/-- A body that can go only one way, a number of times, and then no further. -/
inductive OneWay
    (body : (Progress → Option result) → Progress → Option result) :
    Nat → Progress → Progress → Prop where
  | stop
      {last : Progress}
      (stuck : ∀ onward, body onward last = none) :
      OneWay body 0 last last
  | turn
      {first after last : Progress}
      {count : Nat}
      (only : OnlyTo body first after)
      (more : OneWay body count after last) :
      OneWay body (count + 1) first last

/-- A greedy repetition goes to the end of its way. -/
theorem searchTurns_greedy
    {count turns : Nat}
    (way : OneWay body count first last)
    (enough : count ≤ turns)
    (fits : onward last = some found) :
    searchTurns .greedy body onward turns first = some found := by
  induction way generalizing turns with
  | stop stuck =>
      cases turns with
      | zero => exact fits
      | succ turns => simp [searchTurns, stuck, firstOf, fits]
  | turn only more inductionHypothesis =>
      cases turns with
      | zero => contradiction
      | succ turns =>
          have behind := inductionHypothesis (Nat.le_of_succ_le_succ enough) fits
          simp [searchTurns, only.search, only.further, firstOf, behind]

/-- A lazy repetition goes on from where the pattern behind it does not fit. -/
theorem searchTurns_lazy
    {turns : Nat}
    (only : OnlyTo body first after)
    (notYet : onward first = none) :
    searchTurns .lazy body onward (turns + 1) first =
      searchTurns .lazy body onward turns after := by
  simp [searchTurns, firstOf, notYet, only.search, only.further]

/-- A lazy repetition stops where the pattern behind it fits. -/
theorem searchTurns_lazy_stop
    {turns : Nat}
    (fits : onward first = some found) :
    searchTurns .lazy body onward turns first = some found := by
  cases turns with
  | zero => exact fits
  | succ turns => simp [searchTurns, firstOf, fits]

/-- A class of characters goes only over the next character, if that is one of it. -/
theorem onlyTo_char
    {isWord : Char → Bool}
    {turns : Nat}
    {accepts : Char → Bool}
    {before : Option Char}
    {c : Char}
    {rest : List Char}
    {offset : Nat}
    {groups : List Group}
    (accepted : accepts c = true) :
    @OnlyTo result (search isWord turns (.char accepts))
      ⟨⟨before, c :: rest, offset⟩, groups⟩ ⟨⟨some c, rest, offset + 1⟩, groups⟩ where
  search onward := by rw [search_char, if_pos accepted]
  further := Nat.lt_succ_self offset

end LedSketch.Pattern
