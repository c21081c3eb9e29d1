import LedSketch.Proofs.Script.Rereading

namespace LedSketch.Script

/-!
# The parser goes on

The tokens of a text are ended: the end of the input is the last one and no other.  From
such tokens every function of the parser leaves such tokens, those for expressions and
statements take one at least, and none looks at what is behind the end.  A depth that is
large for the number of the tokens is never used up, and a larger one changes nothing.
-/

theorem TokenKind.eq_endOfInput
    {kind : TokenKind}
    (isEnd : kind.isEnd = true) :
    kind = .endOfInput := by
  cases kind with
  | endOfInput => rfl
  | _ => contradiction

theorem TokenKind.notEnd_of_ne
    {kind : TokenKind}
    (different : kind ≠ .endOfInput) :
    kind.isEnd = false :=
  Bool.eq_false_iff.mpr (different ∘ eq_endOfInput)

/-- The last token is the end of the input, and no other is. -/
inductive Ended : List Token → Prop where
  | last
      {token : Token}
      (isEnd : token.kind = .endOfInput) :
      Ended [token]
  | more
      {token : Token}
      {tokens : List Token}
      (notEnd : token.kind ≠ .endOfInput)
      (ended : Ended tokens) :
      Ended (token :: tokens)

namespace Ended

variable {tokens : List Token} {token : Token}

/-- The end of the input is a token. -/
theorem length_pos (ended : Ended tokens) : 0 < tokens.length := by
  cases ended <;> exact Nat.succ_pos _

/-- The input goes on behind a token that is not its end. -/
theorem tail
    (ended : Ended (token :: tokens))
    (notEnd : token.kind ≠ .endOfInput) :
    Ended tokens := by
  cases ended with
  | last isEnd => exact (notEnd isEnd).elim
  | more _ ended => exact ended

/-- Only the last token is the end of the input. -/
theorem notEnd_of_mem
    {front : List Token}
    {last : Token}
    (ended : Ended (front ++ [last])) :
    ∀ token ∈ front, token.kind ≠ .endOfInput := by
  induction front with
  | nil => simp
  | cons first front inductionHypothesis =>
      rw [List.cons_append] at ended
      generalize whole : front ++ [last] = tokens at ended
      cases ended with
      | last => simp at whole
      | more notEnd ended =>
          subst whole
          intro token member
          rcases List.mem_cons.mp member with rfl | inFront
          · exact notEnd
          · exact inductionHypothesis ended token inFront

/-- Only the end of the input is left once it is next. -/
theorem eq_singleton
    (ended : Ended tokens)
    (isEnd : (kindOf tokens).isEnd = true) :
    ∃ last, tokens = [last] ∧ last.kind = .endOfInput := by
  cases ended with
  | @last token isLast => exact ⟨token, rfl, isLast⟩
  | more notEnd _ => exact (notEnd (TokenKind.eq_endOfInput isEnd)).elim

/-- The kind of the next token is not changed by what is behind the end. -/
theorem kindOf_append
    (ended : Ended tokens)
    (behind : List Token) :
    kindOf (tokens ++ behind) = kindOf tokens := by
  cases ended <;> rfl

/-- The line of the next token is not changed by what is behind the end. -/
theorem lineOf_append
    (ended : Ended tokens)
    (behind : List Token) :
    lineOf (tokens ++ behind) = lineOf tokens := by
  cases ended <;> rfl

/-- The names in front of other tokens end before the end of the input. -/
theorem splitNames_append
    (ended : Ended tokens)
    (behind : List Token) :
    Ended (splitNames tokens).2 ∧
      splitNames (tokens ++ behind) =
        ((splitNames tokens).1, (splitNames tokens).2 ++ behind) := by
  induction ended with
  | @last token isEnd =>
      have none : splitNames [token] = ([], [token]) := by rw [splitNames, isEnd]
      refine ⟨by rw [none]; exact .last isEnd, ?_⟩
      rw [none, List.singleton_append, splitNames, isEnd]
  | @more token tokens notEnd ended inductionHypothesis =>
      obtain ⟨endedBehind, same⟩ := inductionHypothesis
      rw [List.cons_append]
      unfold splitNames
      split
      · exact ⟨endedBehind, by rw [same]⟩
      · exact ⟨.more notEnd ended, rfl⟩

/-- Whether a cast is ahead does not depend on what is behind the end of the input. -/
theorem castAhead?_append
    (ended : Ended tokens)
    (behind : List Token) :
    castAhead? (tokens ++ behind) =
      (castAhead? tokens).map fun ahead => (ahead.1, ahead.2 ++ behind) := by
  unfold castAhead?
  rw [ended.kindOf_append]
  split
  · next opens =>
      cases ended with
      | last isEnd =>
          rw [Parser.kindOf_cons, isEnd] at opens
          contradiction
      | @more token tokens notEnd ended =>
          obtain ⟨endedNames, same⟩ := ended.splitNames_append behind
          simp only [List.cons_append, List.drop_succ_cons, List.drop_zero, same]
          rw [endedNames.kindOf_append]
          cases closes : (kindOf (splitNames tokens).2).isPunct .rightParen with
          | false => rfl
          | true =>
              generalize (splitNames tokens).2 = inner at endedNames closes
              cases endedNames with
              | last isEnd =>
                  rw [Parser.kindOf_cons, isEnd] at closes
                  contradiction
              | more _ endedInner =>
                  simp only [List.cons_append, List.drop_succ_cons, List.drop_zero,
                    endedInner.kindOf_append]
                  split
                  · rw [Option.map_map]
                    rfl
                  · rfl
  · rfl

/-- The input goes on behind names. -/
theorem drop_names
    {names : List Token}
    {words : List String}
    (ended : Ended (names ++ tokens))
    (areNames : names.map Token.kind = words.map .name) :
    Ended tokens := by
  induction names generalizing words with
  | nil => exact ended
  | cons name names inductionHypothesis =>
      cases words with
      | nil => contradiction
      | cons word words =>
          obtain ⟨isName, areNames⟩ := List.cons.inj areNames
          refine inductionHypothesis (ended.tail ?_) areNames
          rw [isName]
          exact TokenKind.noConfusion

/-- The end of the input is behind a cast. -/
theorem of_castAhead?
    {kind : CastKind}
    {after : List Token}
    (ended : Ended tokens)
    (ahead : castAhead? tokens = some (kind, after)) :
    Ended after ∧ ∃ taken, tokens = taken ++ after ∧ 1 ≤ taken.length := by
  obtain ⟨opening, names, closing, words, rfl, isOpening, areNames, isClosing, _⟩ :=
    Parser.exists_of_castAhead? ahead
  refine ⟨?_, opening :: (names ++ [closing]), by simp, by simp⟩
  have behindOpening := ended.tail (by rw [isOpening]; exact TokenKind.noConfusion)
  refine (behindOpening.drop_names areNames).tail ?_
  rw [isClosing]
  exact TokenKind.noConfusion

end Ended

namespace Parser

variable {α β : Type}

/-- An outcome with more tokens behind those that are left. -/
def leaving
    (behind : List Token)
    (outcome : Except ParseError (α × List Token)) :
    Except ParseError (α × List Token) :=
  outcome.map fun left => (left.1, left.2 ++ behind)

/--
From ended tokens of a kind, the first parser takes some of those in front of the end.  If
the tokens are few enough, then it does not fail for want of depth, and the second parser
does the same, whatever stands behind the end.
-/
structure AdvancesFrom
    (starts : TokenKind → Prop)
    (bound least : Nat)
    (first second : Parser α) :
    Prop where
  takes :
    ∀ tokens value rest,
      Ended tokens →
      starts (kindOf tokens) →
      first.run tokens = .ok (value, rest) →
      Ended rest ∧ ∃ taken, tokens = taken ++ rest ∧ least ≤ taken.length
  finishes :
    ∀ tokens error,
      Ended tokens →
      starts (kindOf tokens) →
      32 * tokens.length < bound →
      first.run tokens = .error error →
      error.cause ≠ .nestedTooDeeply
  again :
    ∀ tokens behind,
      Ended tokens →
      starts (kindOf tokens) →
      32 * tokens.length < bound →
      second.run (tokens ++ behind) = leaving behind (first.run tokens)

/-- A parser takes some of the tokens in front of the end, and the other does the same. -/
abbrev Advances
    (bound least : Nat)
    (first second : Parser α) :
    Prop :=
  AdvancesFrom (fun _ => True) bound least first second

/-- A token that is asked for is passed, or all tokens are left. -/
theorem Asks.answer
    {question : Parser Bool}
    {wanted : TokenKind}
    {tokens : List Token}
    (asks : Asks question wanted)
    (ended : Ended tokens) :
    (∃ token rest,
        tokens = token :: rest ∧ Ended rest ∧
          ∀ behind, question.run (tokens ++ behind) = .ok (true, rest ++ behind)) ∨
      ∀ behind, question.run (tokens ++ behind) = .ok (false, tokens ++ behind) := by
  by_cases isNext : kindOf tokens = wanted
  · cases ended with
    | last isEnd => exact (asks.notEnd (isNext.symm.trans isEnd)).elim
    | more _ ended => exact .inl ⟨_, _, rfl, ended, fun _ => asks.next _ _ isNext⟩
  · refine .inr fun behind => asks.other _ ?_
    rwa [ended.kindOf_append]

namespace AdvancesFrom

variable {starts : TokenKind → Prop} {bound least : Nat} {first second : Parser α}

/-- Tokens are taken from a token of this kind too. -/
theorem onKind
    (advances : Advances bound least first second)
    (kind : TokenKind) :
    AdvancesFrom (· = kind) bound least first second where
  takes tokens value rest ended _ := advances.takes tokens value rest ended trivial
  finishes tokens error ended _ := advances.finishes tokens error ended trivial
  again tokens behind ended _ := advances.again tokens behind ended trivial

/-- A parser with a bound keeps to lower ones, and takes fewer tokens as well. -/
theorem weaken
    {lower fewer : Nat}
    (advances : AdvancesFrom starts bound least first second)
    (isLower : lower ≤ bound)
    (isFewer : fewer ≤ least) :
    AdvancesFrom starts lower fewer first second where
  takes tokens value rest ended isStart ran := by
    obtain ⟨endedRest, taken, whole, long⟩ := advances.takes tokens value rest ended isStart ran
    exact ⟨endedRest, taken, whole, Nat.le_trans isFewer long⟩
  finishes tokens error ended isStart few :=
    advances.finishes tokens error ended isStart (Nat.lt_of_lt_of_le few isLower)
  again tokens behind ended isStart few :=
    advances.again tokens behind ended isStart (Nat.lt_of_lt_of_le few isLower)

theorem lower
    {few : Nat}
    (advances : AdvancesFrom starts bound least first second)
    (isLower : few ≤ bound) :
    AdvancesFrom starts few least first second :=
  advances.weaken isLower (Nat.le_refl least)

/-- A parser that takes a token is one that need not. -/
theorem maybe (advances : AdvancesFrom starts bound least first second) :
    AdvancesFrom starts bound 0 first second :=
  advances.weaken (Nat.le_refl bound) (Nat.zero_le least)

/-- A result takes no token. -/
theorem pure
    (bound : Nat)
    (value : α) :
    Advances bound 0 (Pure.pure value) (Pure.pure value) where
  takes tokens value rest ended _ ran := by
    cases ran
    exact ⟨ended, [], rfl, Nat.le_refl 0⟩
  finishes _ _ _ _ _ ran := nomatch ran
  again _ _ _ _ _ := rfl

/-- A failure takes no token. -/
theorem fail
    {cause : ParseCause}
    (line : Nat)
    (shallow : cause ≠ .nestedTooDeeply) :
    Advances bound least (Parser.fail line cause : Parser α) (Parser.fail line cause) where
  takes _ _ _ _ _ ran := nomatch ran
  finishes _ _ _ _ _ ran := by
    cases ran
    exact shallow
  again _ _ _ _ _ := rfl

/-- A parser without depth is not asked for anything. -/
theorem tooDeep (few : bound ≤ 32) : Advances bound least Parser.tooDeep second where
  takes _ _ _ _ _ ran := nomatch ran
  finishes _ _ ended _ short := by
    have some := ended.length_pos
    omega
  again _ _ ended _ short := by
    have some := ended.length_pos
    omega

/-- Two parsers one after the other take the tokens of both. -/
theorem bind
    {next other : α → Parser β}
    {boundFirst leastFirst : Nat}
    (advances : AdvancesFrom starts boundFirst leastFirst first second)
    (boundLater leastLater : Nat)
    (later : ∀ value, Advances boundLater leastLater (next value) (other value))
    (room : bound ≤ boundFirst ∧ bound ≤ boundLater + 32 * leastFirst)
    (length : least ≤ leastFirst + leastLater) :
    AdvancesFrom starts bound least (first >>= next) (second >>= other) where
  takes tokens value rest ended isStart ran := by
    obtain ⟨result, between, ranFirst, ranLater⟩ := run_bind_eq_ok ran
    obtain ⟨endedBetween, taken, rfl, long⟩ :=
      advances.takes tokens result between ended isStart ranFirst
    obtain ⟨endedRest, takenLater, rfl, longLater⟩ :=
      (later result).takes between value rest endedBetween trivial ranLater
    refine ⟨endedRest, taken ++ takenLater, (List.append_assoc ..).symm, ?_⟩
    rw [List.length_append]
    omega
  finishes tokens error ended isStart few ran := by
    rw [StateT.run_bind] at ran
    cases ranFirst : first.run tokens with
    | error found =>
        rw [ranFirst] at ran
        cases ran
        exact advances.finishes tokens error ended isStart (by omega) ranFirst
    | ok outcome =>
        rw [ranFirst] at ran
        obtain ⟨endedBetween, taken, rfl, long⟩ :=
          advances.takes tokens outcome.1 outcome.2 ended isStart ranFirst
        rw [List.length_append] at few
        exact (later outcome.1).finishes outcome.2 error endedBetween trivial (by omega) ran
  again tokens behind ended isStart few := by
    have onward := advances.again tokens behind ended isStart (by omega)
    rw [StateT.run_bind, StateT.run_bind, onward]
    cases ranFirst : first.run tokens with
    | error found => rfl
    | ok outcome =>
        obtain ⟨endedBetween, taken, rfl, long⟩ :=
          advances.takes tokens outcome.1 outcome.2 ended isStart ranFirst
        rw [List.length_append] at few
        exact (later outcome.1).again outcome.2 behind endedBetween trivial (by omega)

/-- What follows may use the same depth. -/
theorem andThen
    {next other : α → Parser β}
    {leastLater : Nat}
    (advances : AdvancesFrom starts bound least first second)
    (later : ∀ value, Advances bound leastLater (next value) (other value)) :
    AdvancesFrom starts bound least (first >>= next) (second >>= other) :=
  advances.bind bound leastLater later (by omega) (by omega)

/-- What follows may use the same depth, and need not take a token. -/
theorem andMaybe
    {next other : α → Parser β}
    (advances : AdvancesFrom starts bound least first second)
    (later : ∀ value, Advances bound 0 (next value) (other value)) :
    AdvancesFrom starts bound least (first >>= next) (second >>= other) :=
  advances.andThen later

/-- A token that is not the end is passed. -/
theorem skip
    {kind : TokenKind}
    (bound : Nat)
    (notEnd : kind.isEnd = false) :
    AdvancesFrom (· = kind) bound 1 Parser.skip Parser.skip := by
  have step :
      ∀ tokens, Ended tokens → kindOf tokens = kind →
        ∃ token rest, tokens = token :: rest ∧ token.kind = kind ∧ Ended rest := by
    intro tokens ended isKind
    cases ended with
    | last isEnd =>
        rw [← isKind, kindOf_cons, isEnd] at notEnd
        contradiction
    | more _ ended => exact ⟨_, _, rfl, isKind, ended⟩
  constructor
  · intro tokens value rest ended isKind ran
    obtain ⟨token, onward, rfl, isKind, endedOnward⟩ := step tokens ended isKind
    rw [run_skip isKind notEnd] at ran
    cases ran
    exact ⟨endedOnward, [token], rfl, Nat.le_refl 1⟩
  · intro tokens error ended isKind few ran
    obtain ⟨token, onward, rfl, isKind, endedOnward⟩ := step tokens ended isKind
    rw [run_skip isKind notEnd] at ran
    contradiction
  · intro tokens behind ended isKind few
    obtain ⟨token, onward, rfl, isKind, endedOnward⟩ := step tokens ended isKind
    rw [List.cons_append, run_skip isKind notEnd, run_skip isKind notEnd]
    rfl

/-- The end of the input is not passed. -/
theorem skip_end (bound : Nat) :
    AdvancesFrom (· = .endOfInput) bound 0 Parser.skip Parser.skip := by
  have stays :
      ∀ tokens, kindOf tokens = .endOfInput → Parser.skip.run tokens = .ok ((), tokens) := by
    intro tokens isEnd
    cases tokens with
    | nil => rfl
    | cons token rest =>
        rw [kindOf_cons] at isEnd
        simp [Parser.skip, afterNext, isEnd]
        rfl
  constructor
  · intro tokens value rest ended isEnd ran
    rw [stays tokens isEnd] at ran
    cases ran
    exact ⟨ended, [], rfl, Nat.le_refl 0⟩
  · intro tokens error ended isEnd few ran
    rw [stays tokens isEnd] at ran
    contradiction
  · intro tokens behind ended isEnd few
    rw [stays tokens isEnd, stays _ ((ended.kindOf_append behind).trans isEnd)]
    rfl

/-- To look at the next token is to know how the tokens start. -/
theorem peekThen
    {next other : TokenKind → Parser β}
    (later : ∀ kind, AdvancesFrom (· = kind) bound least (next kind) (other kind)) :
    Advances bound least (peek >>= next) (peek >>= other) where
  takes tokens value rest ended _ ran :=
    (later (kindOf tokens)).takes tokens value rest ended rfl ran
  finishes tokens error ended _ few ran :=
    (later (kindOf tokens)).finishes tokens error ended rfl few ran
  again tokens behind ended _ few := by
    have onward := (later (kindOf tokens)).again tokens behind ended rfl few
    rw [← ended.kindOf_append behind] at onward
    exact onward.trans (by rw [ended.kindOf_append]; rfl)

/-- To look at the line takes no token. -/
theorem lineThen
    {next other : Nat → Parser β}
    (later : ∀ line, AdvancesFrom starts bound least (next line) (other line)) :
    AdvancesFrom starts bound least (line >>= next) (line >>= other) where
  takes tokens value rest ended isStart ran :=
    (later (lineOf tokens)).takes tokens value rest ended isStart ran
  finishes tokens error ended isStart few ran :=
    (later (lineOf tokens)).finishes tokens error ended isStart few ran
  again tokens behind ended isStart few := by
    have onward := (later (lineOf tokens)).again tokens behind ended isStart few
    rw [← ended.lineOf_append behind] at onward
    exact onward.trans (by rw [ended.lineOf_append]; rfl)

theorem unexpected (what : String) :
    Advances bound least (Parser.unexpected what : Parser α) (Parser.unexpected what) :=
  lineThen fun line => peekThen fun kind => (fail line ParseCause.noConfusion).onKind kind

/-- A certain token is asked for, and what follows depends on whether it is there. -/
theorem askThen
    {question : Parser Bool}
    {wanted : TokenKind}
    {next other : Bool → Parser β}
    (asks : Asks question wanted)
    (boundLater leastLater : Nat)
    (yes : Advances boundLater leastLater (next true) (other true))
    (no : Advances bound least (next false) (other false))
    (room : bound ≤ boundLater + 32)
    (length : least ≤ leastLater + 1) :
    Advances bound least (question >>= next) (question >>= other) := by
  constructor
  · intro tokens value rest ended _ ran
    obtain ⟨token, onward, rfl, endedOnward, asked⟩ | asked := asks.answer ended
    · rw [StateT.run_bind, ← List.append_nil (token :: onward), asked, List.append_nil] at ran
      obtain ⟨endedRest, taken, rfl, long⟩ :=
        yes.takes onward value rest endedOnward trivial ran
      exact ⟨endedRest, token :: taken, rfl, by rw [List.length_cons]; omega⟩
    · rw [StateT.run_bind, ← List.append_nil tokens, asked, List.append_nil] at ran
      exact no.takes tokens value rest ended trivial ran
  · intro tokens error ended _ few ran
    obtain ⟨token, onward, rfl, endedOnward, asked⟩ | asked := asks.answer ended
    · rw [StateT.run_bind, ← List.append_nil (token :: onward), asked, List.append_nil] at ran
      rw [List.length_cons] at few
      exact yes.finishes onward error endedOnward trivial (by omega) ran
    · rw [StateT.run_bind, ← List.append_nil tokens, asked, List.append_nil] at ran
      exact no.finishes tokens error ended trivial few ran
  · intro tokens behind ended _ few
    rw [StateT.run_bind, StateT.run_bind]
    obtain ⟨token, onward, rfl, endedOnward, asked⟩ | asked := asks.answer ended
    · rw [asked, ← List.append_nil (token :: onward), asked, List.append_nil]
      rw [List.length_cons] at few
      exact yes.again onward behind endedOnward trivial (by omega)
    · have alone := asked []
      rw [List.append_nil] at alone
      rw [asked, alone]
      exact no.again tokens behind ended trivial few

/-- A cast is passed if one is ahead, and what follows depends on whether one was. -/
theorem castThen
    {next other : CastKind → Parser β}
    {plain plainOther : Parser β}
    (boundLater leastLater : Nat)
    (casts : ∀ kind, Advances boundLater leastLater (next kind) (other kind))
    (operand : Advances bound least plain plainOther)
    (room : bound ≤ boundLater + 32)
    (length : least ≤ leastLater + 1) :
    Advances bound least
      (do
        match castAhead? (← get) with
        | some (kind, rest) =>
            set rest
            next kind
        | none => plain)
      (do
        match castAhead? (← get) with
        | some (kind, rest) =>
            set rest
            other kind
        | none => plainOther) where
  takes tokens value rest ended _ ran := by
    simp only [StateT.run_bind, StateT.run_get, pure_bind] at ran
    cases ahead : castAhead? tokens with
    | none =>
        rw [ahead] at ran
        exact operand.takes tokens value rest ended trivial ran
    | some cast =>
        obtain ⟨kind, after⟩ := cast
        rw [ahead] at ran
        obtain ⟨endedAfter, front, rfl, some⟩ := ended.of_castAhead? ahead
        obtain ⟨endedRest, taken, rfl, long⟩ :=
          (casts kind).takes after value rest endedAfter trivial ran
        exact ⟨endedRest, front ++ taken, (List.append_assoc ..).symm,
          by rw [List.length_append]; omega⟩
  finishes tokens error ended _ few ran := by
    simp only [StateT.run_bind, StateT.run_get, pure_bind] at ran
    cases ahead : castAhead? tokens with
    | none =>
        rw [ahead] at ran
        exact operand.finishes tokens error ended trivial few ran
    | some cast =>
        obtain ⟨kind, after⟩ := cast
        rw [ahead] at ran
        obtain ⟨endedAfter, front, rfl, some⟩ := ended.of_castAhead? ahead
        rw [List.length_append] at few
        exact (casts kind).finishes after error endedAfter trivial (by omega) ran
  again tokens behind ended _ few := by
    simp only [StateT.run_bind, StateT.run_get, pure_bind]
    rw [ended.castAhead?_append]
    cases ahead : castAhead? tokens with
    | none => exact operand.again tokens behind ended trivial few
    | some cast =>
        obtain ⟨kind, after⟩ := cast
        obtain ⟨endedAfter, front, rfl, some⟩ := ended.of_castAhead? ahead
        rw [List.length_append] at few
        exact (casts kind).again after behind endedAfter trivial (by omega)

/-- A mark that is expected takes a token. -/
theorem expect
    (bound : Nat)
    (mark : Punct)
    (what : String) :
    Advances bound 1 (Parser.expect mark what) (Parser.expect mark what) :=
  askThen (asks_takes mark) bound 0 (pure bound ()) (unexpected what) (by omega) (by omega)

/-- A name that is expected takes a token. -/
theorem name
    (bound : Nat)
    (what : String) :
    Advances bound 1 (Parser.name what) (Parser.name what) := by
  refine peekThen fun kind => ?_
  cases kind with
  | name word => exact (skip bound rfl).andThen fun _ => pure bound word
  | _ => exact (unexpected what).onKind _

end AdvancesFrom

section Expressions

variable {depth : Nat}

/--
The parsers of expressions take some tokens, and those of larger depths take the same ones,
if their number allows it.
-/
structure ExpressionsAdvance (depth : Nat) : Prop where
  expression :
    ∀ other, depth ≤ other → Advances (depth + 1) 1 (expression depth) (expression other)
  conditional :
    ∀ other, depth ≤ other → Advances (depth + 2) 1 (conditional depth) (conditional other)
  operators :
    ∀ level other,
      level ≤ Operator.levels →
      depth ≤ other →
      Advances (depth + (level + 3)) 1 (operators depth level) (operators other level)
  moreOperators :
    ∀ level other left,
      level < Operator.levels →
      depth ≤ other →
      Advances depth 0 (moreOperators depth level left) (moreOperators other level left)
  unary : ∀ other, depth ≤ other → Advances (depth + 14) 1 (unary depth) (unary other)
  suffixes :
    ∀ operand other,
      depth ≤ other → Advances depth 0 (suffixes depth operand) (suffixes other operand)
  expressions :
    ∀ close other,
      depth ≤ other → Advances depth 1 (expressions depth close) (expressions other close)
  primary : ∀ other, depth ≤ other → Advances (depth + 15) 1 (primary depth) (primary other)

/-- A larger depth than one that is left has one left as well. -/
theorem Advances.of_succ
    {first : Parser α}
    {parser : Nat → Parser α}
    {bound least : Nat}
    (advances : ∀ other, depth ≤ other → Advances bound least first (parser (other + 1)))
    (other : Nat)
    (deeper : depth + 1 ≤ other) :
    Advances bound least first (parser other) := by
  cases other with
  | zero => contradiction
  | succ other => exact advances other (Nat.le_of_succ_le_succ deeper)

namespace ExpressionsAdvance

/-- At no depth all parsers say that the nesting is too deep. -/
theorem zero : ExpressionsAdvance 0 where
  expression _ _ := .tooDeep (by omega)
  conditional _ _ := .tooDeep (by omega)
  operators level _ isLevel _ := .tooDeep (by unfold Operator.levels at isLevel; omega)
  moreOperators _ _ _ _ _ := .tooDeep (by omega)
  unary _ _ := .tooDeep (by omega)
  suffixes _ _ _ := .tooDeep (by omega)
  expressions _ _ _ := .tooDeep (by omega)
  primary _ _ := .tooDeep (by omega)

variable (advance : ExpressionsAdvance depth) (other : Nat)
include advance

/-- An expression takes a token. -/
theorem expression_succ :
    depth + 1 ≤ other →
      Advances (depth + 2) 1 (Parser.expression (depth + 1)) (Parser.expression other) := by
  refine Advances.of_succ (fun other deeper => ?_) other
  refine (advance.conditional other deeper).andMaybe fun target => .peekThen fun kind => ?_
  split
  · exact (AdvancesFrom.pure _ target).onKind kind
  · next op isMark =>
      have notEnd := TokenKind.notEnd_of_ne (by rintro rfl; contradiction : kind ≠ .endOfInput)
      split
      · refine (AdvancesFrom.skip (depth + 2) notEnd).bind (depth + 1) 1 (fun _ => ?_)
          (by omega) (by omega)
        exact (advance.expression other deeper).andThen fun value => .pure _ _
      · exact (AdvancesFrom.fail _ ParseCause.noConfusion).onKind kind

/-- The condition of a conditional takes a token. -/
theorem conditional_succ :
    depth + 1 ≤ other →
      Advances (depth + 3) 1 (Parser.conditional (depth + 1)) (Parser.conditional other) := by
  refine Advances.of_succ (fun other deeper => ?_) other
  have expression := advance.expression other deeper
  refine (advance.operators 0 other (Nat.zero_le _) deeper).andMaybe fun test => ?_
  refine .askThen (asks_takes .question) (depth + 1) 1 ?_ (.pure _ test) (by omega) (by omega)
  exact expression.andThen fun whenTrue => (AdvancesFrom.expect _ .colon _).andThen fun _ =>
    expression.andThen fun whenFalse => .pure _ _

/-- The first operand of operators takes a token. -/
theorem operators_succ
    (level : Nat)
    (isLevel : level ≤ Operator.levels) :
    depth + 1 ≤ other →
      Advances (depth + 1 + (level + 3)) 1 (Parser.operators (depth + 1) level)
        (Parser.operators other level) := by
  have atMost : level ≤ 10 := isLevel
  refine @Advances.of_succ _ _ _ (Parser.operators · level) _ _ (fun other deeper => ?_) other
  unfold Parser.operators
  split
  · next below =>
      exact (advance.operators (level + 1) other below deeper).bind depth 0
        (fun left => advance.moreOperators level other left below deeper) (by omega) (by omega)
  · next above =>
      have isTop : level = 10 := by
        unfold Operator.levels at above
        omega
      subst isTop
      exact advance.unary other deeper

/-- Each operator takes a token before its operand. -/
theorem moreOperators_succ
    (level : Nat)
    (left : Expr)
    (isLevel : level < Operator.levels) :
    depth + 1 ≤ other →
      Advances (depth + 1) 0 (Parser.moreOperators (depth + 1) level left)
        (Parser.moreOperators other level left) := by
  refine @Advances.of_succ _ _ _ (Parser.moreOperators · level left) _ _
    (fun other deeper => ?_) other
  refine .peekThen fun kind => ?_
  split
  · exact (AdvancesFrom.pure _ left).onKind kind
  · next op isOperator =>
      have notEnd := TokenKind.notEnd_of_ne (by rintro rfl; contradiction : kind ≠ .endOfInput)
      refine (AdvancesFrom.skip (depth + 1) notEnd).bind depth 1 (fun _ => ?_) (by omega)
        (by omega)
      refine AdvancesFrom.andThen ?_ fun right =>
        advance.moreOperators level other _ isLevel deeper
      exact (advance.operators (level + 1) other isLevel deeper).weaken (by omega) (by omega)

/-- Each suffix takes a token. -/
theorem suffixes_succ (operand : Expr) :
    depth + 1 ≤ other →
      Advances (depth + 1) 0 (Parser.suffixes (depth + 1) operand)
        (Parser.suffixes other operand) := by
  refine @Advances.of_succ _ _ _ (Parser.suffixes · operand) _ _ (fun other deeper => ?_) other
  have suffixes := fun operand => advance.suffixes operand other deeper
  refine .lineThen fun line => ?_
  refine .askThen (asks_takes .leftParen) depth 1 ?_ ?_ (by omega) (by omega)
  · exact (advance.expressions .rightParen other deeper).andThen fun values => suffixes _
  refine .askThen (asks_takes .dot) depth 1 ?_ ?_ (by omega) (by omega)
  · exact (AdvancesFrom.name depth _).andThen fun member => suffixes _
  refine .askThen (asks_takes .leftBracket) depth 1 ?_ ?_ (by omega) (by omega)
  · have expression := (advance.expression other deeper).lower (Nat.le_succ depth)
    exact expression.andThen fun position =>
      (AdvancesFrom.expect depth .rightBracket _).andThen fun _ => suffixes _
  refine .peekThen fun kind => ?_
  split
  · next step isStep =>
      have notEnd := TokenKind.notEnd_of_ne (by rintro rfl; contradiction : kind ≠ .endOfInput)
      exact (AdvancesFrom.skip (depth + 1) notEnd).bind depth 0 (fun _ => suffixes _) (by omega)
        (by omega)
  · exact (AdvancesFrom.pure _ operand).onKind kind

/-- A list takes its closing mark. -/
theorem expressions_succ (close : Punct) :
    depth + 1 ≤ other →
      Advances (depth + 1) 1 (Parser.expressions (depth + 1) close)
        (Parser.expressions other close) := by
  refine @Advances.of_succ _ _ _ (Parser.expressions · close) _ _ (fun other deeper => ?_) other
  refine .askThen (asks_takes close) (depth + 1) 0 (.pure _ _) ?_ (by omega) (by omega)
  refine (advance.expression other deeper).andMaybe fun first => ?_
  refine .askThen (asks_takes .comma) depth 1 ?_ ?_ (by omega) (by omega)
  · exact (advance.expressions close other deeper).andThen fun others => .pure _ _
  · exact ((AdvancesFrom.expect _ close _).andThen fun _ => .pure _ _).maybe

/-- A primary expression takes a token. -/
theorem primary_succ :
    depth + 1 ≤ other →
      Advances (depth + 16) 1 (Parser.primary (depth + 1)) (Parser.primary other) := by
  refine Advances.of_succ (fun other deeper => ?_) other
  refine .lineThen fun line => .peekThen fun kind => ?_
  by_cases isEnd : kind.isEnd = true
  · obtain rfl := TokenKind.eq_endOfInput isEnd
    exact (AdvancesFrom.skip_end (depth + 16)).bind (depth + 16) 1
      (fun _ => .fail line ParseCause.noConfusion) (by omega) (by omega)
  refine (AdvancesFrom.skip (depth + 16) (Bool.eq_false_iff.mpr isEnd)).bind depth 0
    (fun _ => ?_) (by omega) (by omega)
  split
  case h_9 =>
    have expression := (advance.expression other deeper).weaken (Nat.le_succ depth) (Nat.zero_le 1)
    exact expression.andThen fun inner =>
      (AdvancesFrom.expect depth .rightParen _).andThen fun _ => .pure _ inner
  case h_10 =>
    have expressions := (advance.expressions .rightBracket other deeper).maybe
    exact expressions.andThen fun items => .pure _ _
  case h_11 => exact .fail _ ParseCause.noConfusion
  all_goals exact .pure _ _

/-- A unary expression takes a token. -/
theorem unary_succ :
    depth + 1 ≤ other →
      Advances (depth + 15) 1 (Parser.unary (depth + 1)) (Parser.unary other) := by
  refine Advances.of_succ (fun other deeper => ?_) other
  have inFront :
      ∀ build : Expr → Expr,
        Advances (depth + 14) 1 (Parser.unary depth >>= fun operand => pure (build operand))
          (Parser.unary other >>= fun operand => pure (build operand)) := fun build =>
    (advance.unary other deeper).andThen fun operand => .pure _ _
  refine .lineThen fun line => .peekThen fun kind => ?_
  split
  · next op isOp =>
      have notEnd := TokenKind.notEnd_of_ne (by rintro rfl; contradiction : kind ≠ .endOfInput)
      exact (AdvancesFrom.skip (depth + 15) notEnd).bind (depth + 14) 1 (fun _ => inFront _)
        (by omega) (by omega)
  refine AdvancesFrom.onKind (.peekThen fun kind => ?_) _
  split
  · next step isStep =>
      have notEnd := TokenKind.notEnd_of_ne (by rintro rfl; contradiction : kind ≠ .endOfInput)
      exact (AdvancesFrom.skip (depth + 15) notEnd).bind (depth + 14) 1 (fun _ => inFront _)
        (by omega) (by omega)
  refine AdvancesFrom.onKind ?_ _
  refine .askThen (asks_takesKeyword .awaitWord) (depth + 14) 1 (inFront _) ?_ (by omega)
    (by omega)
  refine .castThen (depth + 14) 1 (fun _ => inFront _) ?_ (by omega) (by omega)
  exact (advance.primary other deeper).bind depth 0
    (fun operand => advance.suffixes operand other deeper) (by omega) (by omega)

omit other in
theorem succ : ExpressionsAdvance (depth + 1) where
  expression := advance.expression_succ
  conditional := advance.conditional_succ
  operators level other isLevel := advance.operators_succ other level isLevel
  moreOperators level other left isLevel := advance.moreOperators_succ other level left isLevel
  unary := advance.unary_succ
  suffixes operand other := advance.suffixes_succ other operand
  expressions close other := advance.expressions_succ other close
  primary := advance.primary_succ

end ExpressionsAdvance

/-- At each depth the parsers of expressions take tokens. -/
theorem expressionsAdvance (depth : Nat) : ExpressionsAdvance depth := by
  induction depth with
  | zero => exact .zero
  | succ depth advance => exact advance.succ

end Expressions

section Statements

variable {depth other : Nat}

namespace AdvancesFrom

/-- An expression among the parts of a statement. -/
theorem expression (deeper : depth ≤ other) :
    Advances depth 1 (Parser.expression depth) (Parser.expression other) :=
  ((expressionsAdvance depth).expression other deeper).weaken (by omega) (by omega)

theorem optionalInit (deeper : depth ≤ other) :
    Advances depth 0 (Parser.optionalInit depth) (Parser.optionalInit other) :=
  .askThen (asks_takes .assign) depth 1 ((expression deeper).andThen fun value => .pure _ _)
    (.pure _ _) (by omega) (by omega)

/-- A condition takes its parentheses. -/
theorem condition (deeper : depth ≤ other) :
    Advances depth 1 (Parser.condition depth) (Parser.condition other) :=
  (expect depth .leftParen _).andThen fun _ => (expression deeper).andThen fun test =>
    (expect depth .rightParen _).andThen fun _ => .pure _ test

/-- A declarator takes its name. -/
theorem declarators :
    depth ≤ other →
      Advances depth 1 (Parser.declarators depth) (Parser.declarators other) := by
  induction depth generalizing other with
  | zero => exact fun _ => .tooDeep (by omega)
  | succ depth inductionHypothesis =>
      refine Advances.of_succ (fun other deeper => ?_) other
      refine (name (depth + 1) _).bind depth 0 (fun variableName => ?_) (by omega) (by omega)
      refine (optionalInit deeper).andMaybe fun init => ?_
      exact .askThen (asks_takes .comma) depth 1
        ((inductionHypothesis deeper).andThen fun others => .pure _ _) (.pure _ _) (by omega)
        (by omega)

/-- Parameters take their closing parenthesis. -/
theorem parameters :
    depth ≤ other →
      Advances depth 1 (Parser.parameters depth) (Parser.parameters other) := by
  induction depth generalizing other with
  | zero => exact fun _ => .tooDeep (by omega)
  | succ depth inductionHypothesis =>
      refine Advances.of_succ (fun other deeper => ?_) other
      refine .askThen (asks_takes .rightParen) (depth + 1) 0 (.pure _ _) ?_ (by omega) (by omega)
      refine (name (depth + 1) _).bind depth 0 (fun parameterName => ?_) (by omega) (by omega)
      refine (optionalInit deeper).andMaybe fun default => ?_
      refine .askThen (asks_takes .comma) depth 1 ?_ ?_ (by omega) (by omega)
      · exact (inductionHypothesis deeper).andThen fun others => .pure _ _
      · exact ((expect depth .rightParen _).andThen fun _ => .pure _ _).maybe

theorem steps :
    depth ≤ other → Advances depth 1 (Parser.steps depth) (Parser.steps other) := by
  induction depth generalizing other with
  | zero => exact fun _ => .tooDeep (by omega)
  | succ depth inductionHypothesis =>
      refine Advances.of_succ (fun other deeper => ?_) other
      refine ((expressionsAdvance depth).expression other deeper).andMaybe fun first => ?_
      exact .askThen (asks_takes .comma) depth 1
        ((inductionHypothesis deeper).andThen fun others => .pure _ _) (.pure _ _) (by omega)
        (by omega)

theorem forInit (deeper : depth ≤ other) :
    Advances depth 0 (Parser.forInit depth) (Parser.forInit other) := by
  refine .peekThen fun kind => ?_
  split
  · exact (AdvancesFrom.pure _ _).onKind kind
  split
  · next opens =>
      have notEnd := TokenKind.notEnd_of_ne (by rintro rfl; contradiction : kind ≠ .endOfInput)
      exact maybe <| .lineThen fun line => (skip depth notEnd).andThen fun _ =>
        (declarators deeper).andThen fun declared => .pure _ _
  · exact (onKind ((expression deeper).andThen fun value => .pure _ _) kind).maybe

theorem unlessNext
    (mark : Punct)
    (deeper : depth ≤ other) :
    Advances depth 0 (Parser.unlessNext mark depth) (Parser.unlessNext mark other) := by
  refine .peekThen fun kind => onKind ?_ kind
  split
  · exact .pure _ _
  · exact ((expression deeper).andThen fun value => .pure _ _).maybe

theorem forSteps (deeper : depth ≤ other) :
    Advances depth 0 (Parser.forSteps depth) (Parser.forSteps other) := by
  refine .peekThen fun kind => onKind ?_ kind
  split
  · exact .pure _ _
  · exact (steps deeper).maybe

/-- A declaration takes its keyword. -/
theorem declaration
    {kind : TokenKind}
    (line : Nat)
    (notEnd : kind.isEnd = false)
    (deeper : depth ≤ other) :
    AdvancesFrom (· = kind) (depth + 1) 1 (Parser.declaration line depth)
      (Parser.declaration line other) := by
  refine (skip (depth + 1) notEnd).bind depth 1 (fun _ => ?_) (by omega) (by omega)
  exact (declarators deeper).andThen fun declared =>
    (expect depth .semicolon _).andThen fun _ => .pure _ _

/-- The test of a case takes its keyword. -/
theorem caseTest (deeper : depth ≤ other) :
    Advances (depth + 1) 1 (Parser.caseTest depth) (Parser.caseTest other) := by
  refine .askThen (asks_takesKeyword .caseWord) depth 1 ?_ ?_ (by omega) (by omega)
  · exact (expression deeper).andThen fun value => .pure _ _
  · exact .askThen (asks_takesKeyword .defaultWord) depth 0 (.pure _ _) (.unexpected _)
      (by omega) (by omega)

end AdvancesFrom

/--
The parsers of statements take some tokens, and those of larger depths take the same ones,
if their number allows it.
-/
structure StatementsAdvance (depth : Nat) : Prop where
  statement :
    ∀ other, depth ≤ other → Advances depth 1 (statement depth) (statement other)
  function :
    ∀ line other,
      depth ≤ other → Advances (depth + 1) 1 (function line depth) (function line other)
  block : ∀ other, depth ≤ other → Advances (depth - 1) 1 (block depth) (block other)
  switchCases :
    ∀ other, depth ≤ other → Advances depth 1 (switchCases depth) (switchCases other)
  caseBody :
    ∀ other, depth ≤ other → Advances (depth - 1) 0 (caseBody depth) (caseBody other)

namespace StatementsAdvance

/-- At no depth all parsers say that the nesting is too deep. -/
theorem zero : StatementsAdvance 0 where
  statement _ _ := .tooDeep (by omega)
  function _ _ _ := .tooDeep (by omega)
  block _ _ := .tooDeep (by omega)
  switchCases _ _ := .tooDeep (by omega)
  caseBody _ _ := .tooDeep (by omega)

/-- What follows the first token of a statement may use less depth. -/
theorem skipThen
    {kind : TokenKind}
    {next again : Unit → Parser Stmt}
    {least : Nat}
    (later : Advances (depth - 1) least (next ()) (again ()))
    (notEnd : kind.isEnd = false) :
    AdvancesFrom (· = kind) (depth + 1) 1 (skip >>= next) (skip >>= again) :=
  (AdvancesFrom.skip (depth + 1) notEnd).bind (depth - 1) least (fun _ => later) (by omega)
    (by omega)

variable (advance : StatementsAdvance depth) (other : Nat)
include advance

/-- A statement takes a token. -/
theorem statement_succ :
    depth + 1 ≤ other →
      Advances (depth + 1) 1 (Parser.statement (depth + 1)) (Parser.statement other) := by
  refine Advances.of_succ (fun other deeper => ?_) other
  have condition := (AdvancesFrom.condition deeper).lower (Nat.sub_le depth 1)
  have statement := (advance.statement other deeper).lower (Nat.sub_le depth 1)
  have unlessNext := (AdvancesFrom.unlessNext .semicolon deeper).lower (Nat.sub_le depth 1)
  have expect := AdvancesFrom.expect (depth - 1)
  refine .lineThen fun line => .peekThen fun kind => ?_
  -- The first token tells the kind of a statement.
  split
  · exact .declaration line rfl deeper
  · exact .declaration line rfl deeper
  · exact .declaration line rfl deeper
  · exact (advance.function line other deeper).onKind _
  · exact (advance.function line other deeper).onKind _
  · exact skipThen ((advance.block other deeper).andThen fun body => .pure _ _) rfl
  · exact skipThen (.pure _ _) rfl
  · refine skipThen (condition.andMaybe fun test => ?_) rfl
    refine (statement.andMaybe fun whenTrue => ?_).maybe
    exact .askThen (asks_takesKeyword .elseWord) (depth - 1) 1
      (statement.andThen fun whenFalse => .pure _ _) (.pure _ _) (by omega) (by omega)
  · exact skipThen (condition.andThen fun test => statement.andThen fun body => .pure _ _) rfl
  · refine skipThen (statement.andMaybe fun body => ?_) rfl
    refine .askThen (asks_takesKeyword .whileWord) (depth - 1) 1 ?_ (.unexpected _) (by omega)
      (by omega)
    exact condition.andThen fun test => (expect .semicolon _).andThen fun _ => .pure _ _
  · have forInit := (AdvancesFrom.forInit deeper).lower (Nat.sub_le depth 1)
    have forSteps := (AdvancesFrom.forSteps deeper).lower (Nat.sub_le depth 1)
    exact skipThen ((expect .leftParen _).andThen fun _ => forInit.andThen fun init =>
      (expect .semicolon _).andThen fun _ => unlessNext.andThen fun test =>
        (expect .semicolon _).andThen fun _ => forSteps.andThen fun steps =>
          (expect .rightParen _).andThen fun _ => statement.andThen fun body => .pure _ _) rfl
  · have switchCases := (advance.switchCases other deeper).lower (Nat.sub_le depth 1)
    exact skipThen (condition.andThen fun test => (expect .leftBrace _).andThen fun _ =>
      switchCases.andThen fun cases => .pure _ _) rfl
  · exact skipThen (unlessNext.andThen fun value => (expect .semicolon _).andThen fun _ =>
      .pure _ _) rfl
  · exact skipThen ((expect .semicolon _).andThen fun _ => .pure _ _) rfl
  · exact skipThen ((expect .semicolon _).andThen fun _ => .pure _ _) rfl
  · refine AdvancesFrom.onKind ?_ _
    exact ((expressionsAdvance depth).expression other deeper).andThen fun value =>
      (AdvancesFrom.expect (depth + 1) .semicolon _).andThen fun _ => .pure _ _

/-- A function takes its keyword. -/
theorem function_succ (line : Nat) :
    depth + 1 ≤ other →
      Advances (depth + 2) 1 (Parser.function line (depth + 1)) (Parser.function line other) := by
  refine @Advances.of_succ _ _ _ (Parser.function line) _ _ (fun other deeper => ?_) other
  have parameters := (AdvancesFrom.parameters deeper).lower (Nat.sub_le depth 1)
  have expect := AdvancesFrom.expect (depth - 1)
  refine .askThen (asks_takesKeyword .asyncWord) (depth + 1) 1 ?_ ?_ (by omega) (by omega)
  -- The word is optional, and what follows is the same with and without it.
  all_goals
    refine .askThen (asks_takesKeyword .functionWord) (depth - 1) 1 ?_ (.unexpected _) (by omega)
      (by omega)
    exact (AdvancesFrom.name (depth - 1) _).andThen fun functionName =>
      (expect .leftParen _).andThen fun _ => parameters.andThen fun parameters =>
        (expect .leftBrace _).andThen fun _ => (advance.block other deeper).andThen fun body =>
          .pure _ _

/-- A block takes its closing brace. -/
theorem block_succ :
    depth + 1 ≤ other → Advances depth 1 (Parser.block (depth + 1)) (Parser.block other) := by
  refine Advances.of_succ (fun other deeper => ?_) other
  refine .askThen (asks_takes .rightBrace) depth 0 (.pure _ _) ?_ (by omega) (by omega)
  refine .peekThen fun kind => AdvancesFrom.onKind ?_ kind
  split
  · exact .unexpected _
  · exact (advance.statement other deeper).bind (depth - 1) 1
      (fun first => (advance.block other deeper).andThen fun others => .pure _ _) (by omega)
      (by omega)

/-- The cases of a switch take its closing brace. -/
theorem switchCases_succ :
    depth + 1 ≤ other →
      Advances (depth + 1) 1 (Parser.switchCases (depth + 1)) (Parser.switchCases other) := by
  refine Advances.of_succ (fun other deeper => ?_) other
  have switchCases := (advance.switchCases other deeper).lower (Nat.sub_le depth 1)
  refine .askThen (asks_takes .rightBrace) depth 0 (.pure _ _) ?_ (by omega) (by omega)
  refine (AdvancesFrom.caseTest deeper).bind (depth - 1) 1 (fun test => ?_) (by omega) (by omega)
  exact (AdvancesFrom.expect (depth - 1) .colon _).andThen fun _ =>
    (advance.caseBody other deeper).andThen fun body =>
      switchCases.andThen fun others => .pure _ _

/-- The body of a case may be empty. -/
theorem caseBody_succ :
    depth + 1 ≤ other →
      Advances depth 0 (Parser.caseBody (depth + 1)) (Parser.caseBody other) := by
  refine Advances.of_succ (fun other deeper => ?_) other
  refine .peekThen fun kind => AdvancesFrom.onKind ?_ kind
  split
  · exact .pure _ _
  · exact (advance.statement other deeper).bind (depth - 1) 0
      (fun first => (advance.caseBody other deeper).andThen fun others => .pure _ _) (by omega)
      (by omega)

omit other in
theorem succ : StatementsAdvance (depth + 1) where
  statement := advance.statement_succ
  function line other := advance.function_succ other line
  block := advance.block_succ
  switchCases := advance.switchCases_succ
  caseBody := advance.caseBody_succ

end StatementsAdvance

/-- At each depth the parsers of statements take tokens. -/
theorem statementsAdvance (depth : Nat) : StatementsAdvance depth := by
  induction depth with
  | zero => exact .zero
  | succ depth advance => exact advance.succ

/-- A program may be empty. -/
theorem AdvancesFrom.program :
    depth ≤ other → Advances (depth - 1) 0 (program depth) (program other) := by
  induction depth generalizing other with
  | zero => exact fun _ => .tooDeep (by omega)
  | succ depth inductionHypothesis =>
      refine Advances.of_succ (fun other deeper => ?_) other
      refine .peekThen fun kind => onKind ?_ kind
      split
      · exact .pure _ _
      · exact ((statementsAdvance depth).statement other deeper).bind (depth - 1) 0
          (fun first => (inductionHypothesis deeper).andThen fun others => .pure _ _) (by omega)
          (by omega)

/-- A program reads on until the end of the input is next. -/
theorem isEnd_of_run_program
    {tokens rest : List Token}
    {body : List Stmt}
    (ran : (program depth).run tokens = .ok (body, rest)) :
    (kindOf rest).isEnd = true := by
  induction depth generalizing tokens body with
  | zero => contradiction
  | succ depth inductionHypothesis =>
      obtain ⟨kind, between, peeked, onward⟩ := run_bind_eq_ok ran
      cases peeked
      split at onward
      · next isEnd =>
          cases onward
          exact isEnd
      · obtain ⟨first, between, ranFirst, onward⟩ := run_bind_eq_ok onward
        obtain ⟨others, last, ranOthers, onward⟩ := run_bind_eq_ok onward
        cases onward
        exact inductionHypothesis ranOthers

end Statements

end Parser

end LedSketch.Script
