import LedSketch.Proofs.Pattern.Repetition
import LedSketch.Proofs.Pattern.Starts

namespace LedSketch

/-!
# What a pattern prefers

Going from a place to a later one before going anywhere else is put together from the parts of
a pattern: an alternative counts where those before it have no run, and a repetition goes on
for as long as its body has one.
-/

namespace Cursor

/-- The place behind a number of characters. -/
def skip
    (cursor : Cursor) :
    Nat → Cursor
  | 0 => cursor
  | count + 1 => cursor.next.skip count

/-- Characters can be skipped in two parts. -/
theorem skip_add
    (cursor : Cursor)
    (first second : Nat) :
    cursor.skip (first + second) = (cursor.skip first).skip second := by
  induction first generalizing cursor with
  | zero => rw [Nat.zero_add, skip]
  | succ first inductionHypothesis => rw [Nat.add_right_comm, skip, skip, inductionHypothesis]

/-- To skip characters is to pass them. -/
theorem passes_skip
    {cursor : Cursor}
    {passed behind : List Char}
    (text : cursor.rest = passed ++ behind) :
    cursor.Passes (cursor.skip passed.length) passed := by
  induction passed generalizing cursor with
  | nil => exact .refl cursor
  | cons c passed inductionHypothesis =>
      have onward : cursor.next.rest = passed ++ behind := by
        rw [next, text]
        rfl
      exact (Passes.next text).trans (inductionHypothesis onward)

/-- What is left is behind the skipped characters. -/
theorem rest_skip
    {cursor : Cursor}
    {passed behind : List Char}
    (text : cursor.rest = passed ++ behind) :
    (cursor.skip passed.length).rest = behind := by
  have split := (passes_skip text).rest
  rw [text] at split
  exact (List.append_cancel_left split).symm

end Cursor

namespace Pattern

namespace Progress

/-- The place behind a number of characters, with the same groups. -/
def skip
    (progress : Progress)
    (count : Nat) :
    Progress :=
  { progress with cursor := progress.cursor.skip count }

theorem skip_skip
    (progress : Progress)
    (first second : Nat) :
    (progress.skip first).skip second = progress.skip (first + second) := by
  simp only [skip, Cursor.skip_add]

theorem rest_skip
    {progress : Progress}
    {passed behind : List Char}
    (text : progress.cursor.rest = passed ++ behind) :
    (progress.skip passed.length).cursor.rest = behind :=
  Cursor.rest_skip text

theorem rest_skip_one
    {progress : Progress}
    {c : Char}
    {behind : List Char}
    (text : progress.cursor.rest = c :: behind) :
    (progress.skip 1).cursor.rest = behind :=
  @rest_skip progress [c] behind text

theorem offset_skip
    {progress : Progress}
    {passed behind : List Char}
    (text : progress.cursor.rest = passed ++ behind) :
    (progress.skip passed.length).cursor.offset = progress.cursor.offset + passed.length :=
  (Cursor.passes_skip text).offset

end Progress

/-- Whether a pattern goes from a place to a later one before it goes anywhere else. -/
structure Prefers
    (turns : Nat)
    (pattern : Pattern)
    (start last : Progress) :
    Prop where
  finds :
    ∀ {result : Type} (onward : Progress → Option result) (found : result),
      onward last = some found →
        search Text.isWordChar turns pattern onward start = some found

/-- Whether a pattern goes nowhere from a place. -/
structure Fails
    (turns : Nat)
    (pattern : Pattern)
    (start : Progress) :
    Prop where
  stuck :
    ∀ {result : Type} (onward : Progress → Option result),
      search Text.isWordChar turns pattern onward start = none

variable {turns : Nat} {first second body : Pattern} {start middle last : Progress}

/-- A search fails if all that the pattern takes leads to a failure. -/
theorem search_eq_none
    {result : Type}
    {onward : Progress → Option result}
    (stuck :
      ∀ after passed remembered,
        Took body start after passed remembered → onward after = none) :
    search Text.isWordChar turns body onward start = none := by
  rw [search_eq_findSome?, List.findSome?_eq_none_iff]
  intro after member
  obtain ⟨passed, remembered, took⟩ := took_runs member
  exact stuck after passed remembered took

namespace Fails

/-- A body that takes nothing of what is ahead fails. -/
theorem of_takes
    (nothing :
      ∀ passed taken behind, Takes body passed taken → start.cursor.rest ≠ passed ++ behind) :
    Fails turns body start where
  stuck _ := search_eq_none fun _ _ _ took =>
    absurd took.passes.rest (nothing _ _ _ took.takes)

/-- A pattern that has to take something fails where it may not start. -/
theorem of_mayStart
    (notEmpty : body.mayBeEmpty = false)
    (refused : ∀ c ∈ start.cursor.rest.head?, body.mayStart c = false) :
    Fails turns body start := by
  refine of_takes fun passed taken behind takes whole => ?_
  cases passed with
  | nil =>
      have empty := takes.mayBeEmpty
      rw [notEmpty] at empty
      contradiction
  | cons c passed =>
      have starts := takes.mayStart
      rw [refused c (by rw [whole]; rfl)] at starts
      contradiction

/-- A sequence fails with its first part. -/
theorem left (fails : Fails turns first start) : Fails turns (.seq first second) start where
  stuck onward := fails.stuck (search Text.isWordChar turns second onward)

end Fails

namespace Prefers

theorem nothing : Prefers turns .nothing start start := ⟨fun _ _ fits => fits⟩

/-- What is preferred first comes first, and then what is preferred behind it. -/
theorem seq
    (front : Prefers turns first start middle)
    (back : Prefers turns second middle last) :
    Prefers turns (.seq first second) start last where
  finds onward found fits := front.finds _ found (back.finds onward found fits)

/-- The left alternative is preferred. -/
theorem left (prefers : Prefers turns first start last) :
    Prefers turns (.either first second) start last where
  finds onward found fits := by
    rw [search_either, prefers.finds onward found fits, Option.some_or]

/-- The right alternative is preferred if the left fails. -/
theorem right
    (fails : Fails turns first start)
    (prefers : Prefers turns second start last) :
    Prefers turns (.either first second) start last where
  finds onward found fits := by
    rw [search_either, fails.stuck onward, Option.none_or, prefers.finds onward found fits]

/-- What fails is left out. -/
theorem absent (fails : Fails turns body start) : Prefers turns (optional body) start start :=
  right fails nothing

theorem all_cons
    {patterns : List Pattern}
    (front : Prefers turns first start middle)
    (back : Prefers turns (all patterns) middle last) :
    Prefers turns (all (first :: patterns)) start last := by
  cases patterns with
  | nil => exact ⟨fun onward found fits => front.finds onward found (back.finds _ _ fits)⟩
  | cons next patterns => exact front.seq back

/-- A group remembers what is preferred in it. -/
theorem group
    (number : Nat)
    (prefers : Prefers turns body start last) :
    Prefers turns (.group number body) start (remember number start last) where
  finds onward found fits :=
    prefers.finds (fun after => onward (remember number start after)) found fits

theorem wordEdge (edge : atWordEdge Text.isWordChar start.cursor = true) :
    Prefers turns .wordEdge start start where
  finds onward found fits := by rw [search, if_pos edge, fits]

theorem lineStart (starts : atLineStart start.cursor = true) :
    Prefers turns .lineStart start start where
  finds onward found fits := by rw [search, if_pos starts, fits]

/-- One character is taken. -/
theorem char
    {accepts : Char → Bool}
    {c : Char}
    {behind : List Char}
    (text : start.cursor.rest = c :: behind)
    (accepted : accepts c = true) :
    Prefers turns (.char accepts) start (start.skip 1) where
  finds onward found fits := by
    simp only [search, text, if_pos accepted]
    exact fits

/-- A word is taken letter by letter. -/
theorem literal
    {word : String}
    {behind : List Char}
    (text : start.cursor.rest = word.toList ++ behind) :
    Prefers turns (literal word) start (start.skip word.toList.length) := by
  unfold Pattern.literal
  generalize word.toList = spelled at text
  induction spelled generalizing start with
  | nil => exact nothing
  | cons c spelled inductionHypothesis =>
      have back := inductionHypothesis (Progress.rest_skip_one text)
      rw [Progress.skip_skip, Nat.add_comm] at back
      exact all_cons (char text (decide_eq_true rfl)) back

end Prefers

/-- A search that leaves less of the text is a match. -/
theorem matchAt?_eq_some
    {pattern : Pattern}
    {cursor : Cursor}
    (goes : search Text.isWordChar turns pattern some ⟨cursor, []⟩ = some last)
    (shorter : last.cursor.rest.length < cursor.rest.length) :
    pattern.matchAt? turns cursor = some ⟨cursor, last.cursor, last.groups⟩ := by
  have further : cursor.offset < last.cursor.offset := by
    rw [search_some] at goes
    obtain ⟨passed, remembered, took⟩ := took_runs (List.mem_of_head? goes)
    have offset : last.cursor.offset = cursor.offset + passed.length := took.passes.offset
    have lengths : cursor.rest.length = passed.length + last.cursor.rest.length := by
      rw [← List.length_append]
      exact congrArg List.length took.passes.rest
    omega
  simp only [matchAt?, goes, if_pos further]

/-- A body that is preferred a number of times, and then fails. -/
inductive Repeats
    (turns : Nat)
    (body : Pattern) :
    Nat → Progress → Progress → Prop where
  | stop
      {last : Progress}
      (fails : Fails turns body last) :
      Repeats turns body 0 last last
  | turn
      {start middle last : Progress}
      {count : Nat}
      (once : Prefers turns body start middle)
      (further : start.cursor.offset < middle.cursor.offset)
      (more : Repeats turns body count middle last) :
      Repeats turns body (count + 1) start last

namespace Repeats

variable {count : Nat}

/-- Turns that are preferred come first in the search. -/
theorem searchTurns
    {result : Type}
    {onward : Progress → Option result}
    {found : result}
    {left : Nat}
    (repeats : Repeats turns body count start last)
    (enough : count ≤ left)
    (fits : onward last = some found) :
    searchTurns .greedy (search Text.isWordChar turns body) onward left start = some found := by
  induction repeats generalizing left with
  | stop fails =>
      cases left with
      | zero => exact fits
      | succ left =>
          unfold Pattern.searchTurns
          dsimp only
          rw [fails.stuck, firstOf, fits]
  | turn once further more inductionHypothesis =>
      cases left with
      | zero => contradiction
      | succ left =>
          have behind := inductionHypothesis (Nat.le_of_succ_le_succ enough) fits
          unfold Pattern.searchTurns
          dsimp only
          rw [once.finds _ found (by rw [if_pos further, behind]), firstOf]

/-- A greedy repetition goes on for as long as its body has a run. -/
theorem prefers
    (repeats : Repeats turns body count start last)
    (enough : count ≤ turns) :
    Prefers turns (zeroOrMore body) start last where
  finds _ _ fits := repeats.searchTurns enough fits

/-- Characters of a class are taken up to the first other one. -/
theorem char
    {accepts : Char → Bool}
    {passed behind : List Char}
    (text : start.cursor.rest = passed ++ behind)
    (accepted : ∀ c ∈ passed, accepts c = true)
    (stops : ∀ c ∈ behind.head?, accepts c = false) :
    Repeats turns (.char accepts) passed.length start (start.skip passed.length) := by
  induction passed generalizing start with
  | nil => exact .stop (.of_mayStart rfl (by rwa [text]))
  | cons c passed inductionHypothesis =>
      obtain ⟨here, others⟩ := List.forall_mem_cons.mp accepted
      have further : start.cursor.offset < (start.skip 1).cursor.offset :=
        Nat.lt_of_lt_of_eq (Nat.lt_succ_self _) (@Progress.offset_skip start [c] _ text).symm
      have more := inductionHypothesis (Progress.rest_skip_one text) others
      rw [Progress.skip_skip, Nat.add_comm] at more
      exact .turn (.char text here) further more

end Repeats

/-- A repetition of a body that fails stays where it is. -/
theorem search_zeroOrMore_of_fails
    {result : Type}
    (fails : Fails turns body start)
    (onward : Progress → Option result) :
    search Text.isWordChar turns (zeroOrMore body) onward start = onward start := by
  rw [zeroOrMore, search_many]
  cases turns with
  | zero => rfl
  | succ turns =>
      unfold searchTurns
      dsimp only
      rw [fails.stuck, firstOf]

/-- An optional pattern that fails stays where it is. -/
theorem search_optional_of_fails
    {result : Type}
    (fails : Fails turns body start)
    (onward : Progress → Option result) :
    search Text.isWordChar turns (optional body) onward start = onward start := by
  rw [optional, search_either, fails.stuck, Option.none_or]
  rfl

section Classes

variable {accepts : Char → Bool} {passed behind : List Char}

/-- As many characters of a class are taken as there are. -/
theorem Prefers.zeroOrMore_char
    (text : start.cursor.rest = passed ++ behind)
    (accepted : ∀ c ∈ passed, accepts c = true)
    (stops : ∀ c ∈ behind.head?, accepts c = false)
    (enough : passed.length ≤ turns) :
    Prefers turns (zeroOrMore (.char accepts)) start (start.skip passed.length) :=
  (Repeats.char text accepted stops).prefers enough

/-- As many characters of a class are taken as there are, and there is one. -/
theorem Prefers.oneOrMore_char
    (text : start.cursor.rest = passed ++ behind)
    (notEmpty : passed ≠ [])
    (accepted : ∀ c ∈ passed, accepts c = true)
    (stops : ∀ c ∈ behind.head?, accepts c = false)
    (enough : passed.length ≤ turns) :
    Prefers turns (oneOrMore (.char accepts)) start (start.skip passed.length) := by
  obtain ⟨c, others, rfl⟩ := List.exists_cons_of_ne_nil notEmpty
  obtain ⟨here, acceptedOthers⟩ := List.forall_mem_cons.mp accepted
  have more :=
    zeroOrMore_char (Progress.rest_skip_one text) acceptedOthers stops (Nat.le_of_succ_le enough)
  rw [Progress.skip_skip, Nat.add_comm] at more
  exact seq (char text here) more

end Classes

section Words

/-- A fixed text is all that it takes. -/
theorem takes_literal
    {word : String}
    {passed : List Char}
    {taken : List (Nat × List Char)}
    (takes : Takes (literal word) passed taken) :
    passed = word.toList := by
  unfold literal at takes
  generalize word.toList = spelled at takes ⊢
  induction spelled generalizing passed taken with
  | nil => exact takes.1
  | cons c spelled inductionHypothesis =>
      obtain ⟨front, back, _, _, ⟨-, other, accepted, rfl⟩, takesBack, rfl, -⟩ :=
        takes_all_cons takes
      rw [of_decide_eq_true accepted, inductionHypothesis takesBack]
      rfl

theorem Needs.literal
    {wanted : Char → Bool}
    {word : String}
    (isWanted : word.toList.any wanted = true) :
    Needs wanted (literal word) := by
  intro passed taken takes
  rw [takes_literal takes]
  exact List.any_eq_true.mp isWanted

/-- What the first of some patterns that fits takes is taken by one of them. -/
theorem takes_any
    {patterns : List Pattern}
    {passed : List Char}
    {taken : List (Nat × List Char)}
    (notEmpty : patterns ≠ [])
    (takes : Takes (any patterns) passed taken) :
    ∃ pattern ∈ patterns, Takes pattern passed taken := by
  induction patterns with
  | nil => contradiction
  | cons pattern patterns inductionHypothesis =>
      cases patterns with
      | nil => exact ⟨pattern, List.mem_singleton_self pattern, takes⟩
      | cons next patterns =>
          rcases takes with here | later
          · exact ⟨pattern, List.mem_cons_self, here⟩
          · obtain ⟨other, member, takesOther⟩ :=
              inductionHypothesis (List.cons_ne_nil next patterns) later
            exact ⟨other, List.mem_cons_of_mem pattern member, takesOther⟩

/-- Only the words are taken. -/
theorem takes_words
    {texts : List String}
    {passed : List Char}
    {taken : List (Nat × List Char)}
    (notEmpty : texts ≠ [])
    (takes : Takes (words texts) passed taken) :
    ∃ word ∈ texts, passed = word.toList := by
  obtain ⟨pattern, member, takesLiteral⟩ :=
    takes_any (by simpa using notEmpty) takes
  obtain ⟨word, isWord, rfl⟩ := List.mem_map.mp member
  exact ⟨word, isWord, takes_literal takesLiteral⟩

/-- Searching for the first of some patterns is searching for each of them in turn. -/
theorem search_any
    {result : Type}
    {patterns : List Pattern}
    (notEmpty : patterns ≠ [])
    (onward : Progress → Option result) :
    search Text.isWordChar turns (any patterns) onward start =
      patterns.findSome? fun pattern => search Text.isWordChar turns pattern onward start := by
  induction patterns with
  | nil => contradiction
  | cons pattern patterns inductionHypothesis =>
      cases patterns with
      | nil =>
          rw [List.findSome?_singleton]
          rfl
      | cons next patterns =>
          have later := inductionHypothesis (List.cons_ne_nil next patterns)
          rw [List.findSome?_cons, ← later]
          have either : any (pattern :: next :: patterns) =
              .either pattern (any (next :: patterns)) := rfl
          rw [either, search_either]
          cases search Text.isWordChar turns pattern onward start <;> rfl

/-- Of several fixed texts the one is taken that stands there, if no other one does. -/
theorem Prefers.words
    {texts : List String}
    {word : String}
    {behind : List Char}
    (text : start.cursor.rest = word.toList ++ behind)
    (member : word ∈ texts)
    (alone : ∀ other ∈ texts, other.toList <+: word.toList ++ behind → other = word) :
    Prefers turns (Pattern.words texts) start (start.skip word.toList.length) := by
  refine ⟨fun onward found fits => ?_⟩
  have here := (@literal turns start word behind text).finds onward found fits
  have notEmpty : texts.map Pattern.literal ≠ [] := by
    simpa using List.ne_nil_of_mem member
  rw [Pattern.words, search_any notEmpty]
  induction texts with
  | nil => contradiction
  | cons other texts inductionHypothesis =>
      obtain ⟨aloneHere, aloneLater⟩ := List.forall_mem_cons.mp alone
      rw [List.map_cons, List.findSome?_cons]
      by_cases same : other = word
      · rw [same, here]
      · have fails : Fails turns (Pattern.literal other) start := by
          refine .of_takes fun passed taken rest takes whole => same (aloneHere ⟨rest, ?_⟩)
          rw [← takes_literal takes, ← whole, text]
        have later : word ∈ texts :=
          (List.mem_cons.mp member).resolve_left (Ne.symm same)
        rw [fails.stuck onward]
        exact inductionHypothesis later aloneLater (by simpa using List.ne_nil_of_mem later)

end Words

end Pattern

end LedSketch
