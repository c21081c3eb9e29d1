import LedSketch.Proofs.Script.Running

namespace LedSketch.Script

/-!
# Reading the same tokens again

What an expression parser takes it reads in the same way whatever stands further behind,
and with any depth that the number of the taken tokens allows.  Some parsers look at the
first token behind what they take; those that end with a closing mark do not.
-/

namespace Parser

variable {α β : Type}

/--
What the first parser takes from tokens of a kind, the second one takes again in front of
other tokens, if the taken ones are few enough.  Either it looks at the token behind them,
which then has to be the same, or it does not.
-/
def RereadsFrom
    (starts : TokenKind → Prop)
    (bound least : Nat)
    (looks : Bool)
    (first second : Parser α) :
    Prop :=
  ∀ tokens value rest,
    starts (kindOf tokens) →
    first.run tokens = .ok (value, rest) →
    ∃ taken,
      tokens = taken ++ rest ∧
        least ≤ taken.length ∧
        ∀ behind,
          32 * taken.length < bound →
          (looks = true → behind.head? = rest.head?) →
          second.run (taken ++ behind) = .ok (value, behind)

/-- What the first parser takes, the second one takes again. -/
def Rereads
    (bound least : Nat)
    (looks : Bool)
    (first second : Parser α) :
    Prop :=
  RereadsFrom (fun _ => True) bound least looks first second

/-- The next token is the same in front of other tokens, if it is taken or known to be. -/
theorem next_eq
    {taken rest behind : List Token}
    {least : Nat}
    {looks : Bool}
    (long : least ≤ taken.length)
    (same : looks = true → behind.head? = rest.head?)
    (sees : 1 ≤ least ∨ looks = true) :
    kindOf (taken ++ behind) = kindOf (taken ++ rest) ∧
      lineOf (taken ++ behind) = lineOf (taken ++ rest) := by
  cases taken with
  | nil =>
      obtain some | isLooking := sees
      · exact absurd (Nat.le_trans some long) (by simp)
      · have sameHead := same isLooking
        cases behind <;> cases rest <;> simp_all [kindOf, lineOf]
  | cons token taken => exact ⟨rfl, rfl⟩

/-- A parser that takes a certain token, if it is next, and says whether it was. -/
structure Asks
    (question : Parser Bool)
    (wanted : TokenKind) :
    Prop where
  next :
    ∀ token rest, token.kind = wanted → question.run (token :: rest) = .ok (true, rest)
  other : ∀ tokens, kindOf tokens ≠ wanted → question.run tokens = .ok (false, tokens)
  notEnd : wanted ≠ .endOfInput

theorem isPunct_eq_false
    {kind : TokenKind}
    {mark : Punct}
    (other : kind ≠ .punct mark) :
    kind.isPunct mark = false := by
  cases kind with
  | punct found =>
      have different : found ≠ mark := fun same => other (congrArg _ same)
      exact decide_eq_false different
  | _ => rfl

/-- Only a mark is this mark. -/
theorem eq_of_isPunct
    {kind : TokenKind}
    {mark : Punct}
    (isMark : kind.isPunct mark = true) :
    kind = .punct mark := by
  cases kind with
  | punct found => exact congrArg _ (of_decide_eq_true isMark)
  | _ => contradiction

theorem isKeyword_eq_false
    {kind : TokenKind}
    {word : Keyword}
    (other : kind ≠ .keyword word) :
    kind.isKeyword word = false := by
  cases kind with
  | keyword found =>
      have different : found ≠ word := fun same => other (congrArg _ same)
      exact decide_eq_false different
  | _ => rfl

/-- An expected mark has been there. -/
theorem exists_of_run_expect
    {mark : Punct}
    {what : String}
    {tokens rest : List Token}
    (ran : (expect mark what).run tokens = .ok ((), rest)) :
    ∃ token, tokens = token :: rest ∧ token.kind = .punct mark := by
  obtain ⟨answer, between, asked, onward⟩ := run_bind_eq_ok ran
  by_cases isNext : kindOf tokens = .punct mark
  · cases tokens with
    | nil => contradiction
    | cons token others =>
        rw [run_takes_next isNext] at asked
        cases asked
        cases onward
        exact ⟨token, rfl, isNext⟩
  · rw [run_takes_other (isPunct_eq_false isNext)] at asked
    cases asked
    contradiction

/-- To take a mark asks for it. -/
theorem asks_takes (mark : Punct) : Asks (takes mark) (.punct mark) where
  next _ _ isMark := run_takes_next isMark
  other _ other := run_takes_other (isPunct_eq_false other)
  notEnd := TokenKind.noConfusion

theorem asks_takesKeyword (word : Keyword) : Asks (takesKeyword word) (.keyword word) where
  next _ _ isWord := run_takesKeyword_next isWord
  other _ other := run_takesKeyword_other (isKeyword_eq_false other)
  notEnd := TokenKind.noConfusion

/-- A token that is skipped is skipped again. -/
theorem RereadsFrom.skipThen
    {bound least : Nat}
    {looks : Bool}
    {kind : TokenKind}
    {next other : Unit → Parser β}
    (boundLater leastLater : Nat)
    (looksLater : Bool)
    (later : Rereads boundLater leastLater looksLater (next ()) (other ()))
    (notEnd : kind.isEnd = false)
    (room : bound ≤ boundLater + 32)
    (length : least ≤ leastLater + 1)
    (sees : looksLater = true → looks = true) :
    RereadsFrom (· = kind) bound least looks (skip >>= next) (skip >>= other) := by
  intro tokens value rest isKind ran
  cases tokens with
  | nil =>
      rw [← isKind] at notEnd
      contradiction
  | cons token tokens =>
      obtain ⟨_, between, skipped, ran⟩ := run_bind_eq_ok ran
      rw [run_skip isKind notEnd] at skipped
      cases skipped
      obtain ⟨taken, rfl, long, again⟩ := later tokens value rest trivial ran
      refine ⟨token :: taken, rfl, by rw [List.length_cons]; omega, ?_⟩
      intro behind few same
      rw [List.length_cons] at few
      exact run_bind (run_skip isKind notEnd)
        (again behind (by omega) fun isLooking => same (sees isLooking))

namespace Rereads

variable {bound least : Nat} {looks : Bool}
variable {first second : Parser α} {next other : α → Parser β}

theorem onKind
    (rereads : Rereads bound least looks first second)
    (kind : TokenKind) :
    RereadsFrom (· = kind) bound least looks first second :=
  fun tokens value rest _ => rereads tokens value rest trivial

/-- A result needs no token. -/
theorem pure
    (bound : Nat)
    (looks : Bool)
    (value : α) :
    Rereads bound 0 looks (Pure.pure value) (Pure.pure value) := by
  intro tokens value rest _ ran
  cases ran
  exact ⟨[], rfl, Nat.le_refl 0, fun _ _ _ => rfl⟩

/-- A parser that always fails takes nothing. -/
theorem of_fails
    (fails : ∀ tokens value rest, first.run tokens ≠ .ok (value, rest)) :
    Rereads bound least looks first second :=
  fun tokens value rest _ ran => (fails tokens value rest ran).elim

/-- A failure is not read again. -/
theorem fail
    (line : Nat)
    (cause : ParseCause) :
    Rereads bound least looks (Parser.fail line cause) second :=
  of_fails nofun

theorem unexpected (what : String) :
    Rereads bound least looks (Parser.unexpected what) second :=
  of_fails nofun

theorem tooDeep : Rereads bound least looks Parser.tooDeep second :=
  of_fails nofun

/-- The second parser need not take what is too much for its depth. -/
theorem of_short
    {enough : Nat}
    (rereads : Rereads enough least looks first first)
    (short : bound ≤ 32 * least) :
    Rereads bound least looks first second := by
  intro tokens value rest _ ran
  obtain ⟨taken, whole, long, _⟩ := rereads tokens value rest trivial ran
  refine ⟨taken, whole, long, fun behind few => ?_⟩
  omega

/-- Parsers one after the other read again what both have read. -/
theorem bind
    {boundFirst leastFirst : Nat}
    {looksFirst : Bool}
    (rereads : Rereads boundFirst leastFirst looksFirst first second)
    (boundLater leastLater : Nat)
    (looksLater : Bool)
    (later : ∀ value, Rereads boundLater leastLater looksLater (next value) (other value))
    (room : bound ≤ boundFirst + 32 * leastLater ∧ bound ≤ boundLater + 32 * leastFirst)
    (length : least ≤ leastFirst + leastLater)
    (sees :
      (looksFirst = true → 1 ≤ leastLater ∨ looks = true) ∧
        (looksLater = true → looks = true)) :
    Rereads bound least looks (first >>= next) (second >>= other) := by
  intro tokens value rest _ ran
  obtain ⟨result, between, ranFirst, ranLater⟩ := run_bind_eq_ok ran
  obtain ⟨taken, rfl, long, again⟩ := rereads tokens result between trivial ranFirst
  obtain ⟨takenLater, rfl, longLater, againLater⟩ :=
    later result between value rest trivial ranLater
  refine ⟨taken ++ takenLater, (List.append_assoc ..).symm, ?_, ?_⟩
  · rw [List.length_append]
    omega
  · intro behind few same
    rw [List.length_append] at few
    rw [List.append_assoc]
    refine run_bind (again _ (by omega) ?_) (againLater behind (by omega) ?_)
    · intro isLooking
      cases takenLater with
      | nil =>
          obtain absurd | isLooking := sees.1 isLooking
          · have short : leastLater ≤ 0 := longLater
            omega
          · exact same isLooking
      | cons token takenLater => rfl
    · exact fun isLooking => same (sees.2 isLooking)

/-- To look at a token makes no difference if it is taken later, or is the same anyhow. -/
theorem peekThen
    {next other : TokenKind → Parser β}
    (later : ∀ kind, RereadsFrom (· = kind) bound least looks (next kind) (other kind))
    (sees : 1 ≤ least ∨ looks = true) :
    Rereads bound least looks (peek >>= next) (peek >>= other) := by
  intro tokens value rest _ ran
  obtain ⟨taken, rfl, long, again⟩ := later (kindOf tokens) tokens value rest rfl ran
  refine ⟨taken, rfl, long, fun behind few same => ?_⟩
  have onward := again behind few same
  rw [← (next_eq long same sees).1] at onward
  exact onward

/-- The line is looked at without a token. -/
theorem lineThen
    {next other : Nat → Parser β}
    (later : ∀ line, Rereads bound least looks (next line) (other line))
    (sees : 1 ≤ least ∨ looks = true) :
    Rereads bound least looks (line >>= next) (line >>= other) := by
  intro tokens value rest _ ran
  obtain ⟨taken, rfl, long, again⟩ := later (lineOf tokens) tokens value rest trivial ran
  refine ⟨taken, rfl, long, fun behind few same => ?_⟩
  have onward := again behind few same
  rw [← (next_eq long same sees).2] at onward
  exact onward

/-- A certain token is asked for, and what follows depends on whether it is there. -/
theorem askThen
    {question : Parser Bool}
    {wanted : TokenKind}
    {next other : Bool → Parser β}
    (asks : Asks question wanted)
    (boundLater leastLater : Nat)
    (looksLater : Bool)
    (yes : Rereads boundLater leastLater looksLater (next true) (other true))
    (no : Rereads bound least looks (next false) (other false))
    (room : bound ≤ boundLater + 32)
    (length : least ≤ leastLater + 1)
    (sees : (looksLater = true → looks = true) ∧ (1 ≤ least ∨ looks = true)) :
    Rereads bound least looks (question >>= next) (question >>= other) := by
  intro tokens value rest _ ran
  obtain ⟨answer, between, asked, onward⟩ := run_bind_eq_ok ran
  by_cases isNext : kindOf tokens = wanted
  · cases tokens with
    | nil => exact (asks.notEnd isNext.symm).elim
    | cons token tokens =>
        rw [asks.next token tokens isNext] at asked
        cases asked
        obtain ⟨taken, rfl, long, again⟩ := yes between value rest trivial onward
        refine ⟨token :: taken, rfl, by rw [List.length_cons]; omega, ?_⟩
        intro behind few same
        rw [List.length_cons] at few
        exact run_bind (asks.next token _ isNext)
          (again behind (by omega) fun isLooking => same (sees.1 isLooking))
  · rw [asks.other tokens isNext] at asked
    cases asked
    obtain ⟨taken, rfl, long, again⟩ := no tokens value rest trivial onward
    refine ⟨taken, rfl, long, fun behind few same => ?_⟩
    have sameKind := (next_eq long same sees.2).1
    exact run_bind (asks.other _ (sameKind ▸ isNext)) (again behind (by omega) same)

/-- A mark that was expected is there again. -/
theorem expect
    (bound : Nat)
    (mark : Punct)
    (what : String) :
    Rereads bound 1 false (Parser.expect mark what) (Parser.expect mark what) :=
  askThen (asks_takes mark) bound 0 false (pure bound false ()) (unexpected what)
    (by omega) (by omega) (by simp)

/-- A name that was expected is there again. -/
theorem name
    (bound : Nat)
    (what : String) :
    Rereads bound 1 false (Parser.name what) (Parser.name what) := by
  refine peekThen (fun kind => ?_) (.inl (Nat.le_refl 1))
  cases kind with
  | name word => exact .skipThen bound 0 false (pure bound false word) rfl (by omega) (by omega) id
  | _ => exact (unexpected what).onKind _

end Rereads

section Casts

/-- Names are split off in front of the tokens that are left. -/
theorem exists_names (tokens : List Token) :
    ∃ names,
      tokens = names ++ (splitNames tokens).2 ∧
        names.map Token.kind = (splitNames tokens).1.map .name := by
  induction tokens with
  | nil => exact ⟨[], rfl, rfl⟩
  | cons token tokens inductionHypothesis =>
      obtain ⟨names, whole, kinds⟩ := inductionHypothesis
      unfold splitNames
      split
      · next word isName =>
          exact ⟨token :: names, congrArg _ whole, by simp [isName, kinds]⟩
      · exact ⟨[], rfl, rfl⟩

/-- A cast is the words of a type in parentheses in front of an operand. -/
theorem exists_of_castAhead?
    {tokens after : List Token}
    {kind : CastKind}
    (some : castAhead? tokens = some (kind, after)) :
    ∃ opening names closing words,
      tokens = opening :: (names ++ closing :: after) ∧
        opening.kind = .punct .leftParen ∧
        names.map Token.kind = words.map .name ∧
        closing.kind = .punct .rightParen ∧
        castKind? words = .some kind ∧
        startsOperand (kindOf after) = true := by
  unfold castAhead? at some
  split at some
  · next opens =>
      cases tokens with
      | nil => contradiction
      | cons opening inner =>
          obtain ⟨names, whole, kinds⟩ := exists_names inner
          simp only [List.drop_succ_cons, List.drop_zero] at some
          split at some
          · next closes =>
              obtain ⟨closes, isStart⟩ := Bool.and_eq_true_iff.mp closes
              obtain ⟨found, isKind, same⟩ := Option.map_eq_some_iff.mp some
              generalize (splitNames inner).2 = ahead at whole closes isStart same
              cases ahead with
              | nil => contradiction
              | cons closing others =>
                  cases same
                  exact ⟨opening, names, closing, _, congrArg _ whole, eq_of_isPunct opens, kinds,
                    eq_of_isPunct closes, isKind, isStart⟩
          · contradiction
  · contradiction

/-- The names in front of tokens end before a token that is none. -/
theorem splitNames_append
    {closing : Token}
    (notName : ∀ word, closing.kind ≠ .name word)
    (inner : List Token) :
    ∃ words next tail,
      ∀ behind, splitNames (inner ++ closing :: behind) = (words, next :: (tail ++ behind)) := by
  induction inner with
  | nil =>
      refine ⟨[], closing, [], fun behind => ?_⟩
      cases isKind : closing.kind with
      | name word => exact (notName word isKind).elim
      | _ =>
          rw [List.nil_append, splitNames, isKind]
          rfl
  | cons token inner inductionHypothesis =>
      obtain ⟨words, next, tail, front⟩ := inductionHypothesis
      cases isKind : token.kind with
      | name word =>
          refine ⟨word :: words, next, tail, fun behind => ?_⟩
          rw [List.cons_append, splitNames, isKind]
          simp only [front]
      | _ =>
          refine ⟨[], token, inner ++ [closing], fun behind => ?_⟩
          rw [List.cons_append, splitNames, isKind]
          simp

/-- Of the tokens behind parentheses, only the next one decides whether a cast is ahead. -/
theorem castAhead?_append
    {opening closing : Token}
    (notName : ∀ word, closing.kind ≠ .name word)
    (inner : List Token) :
    ∃ (cast : TokenKind → Option CastKind) (tail : List Token),
      ∀ behind,
        castAhead? (opening :: (inner ++ closing :: behind)) =
          (cast (kindOf (tail ++ behind))).map fun kind => (kind, tail ++ behind) := by
  obtain ⟨words, next, tail, front⟩ := splitNames_append notName inner
  refine ⟨fun kind =>
    if opening.kind.isPunct .leftParen && (next.kind.isPunct .rightParen && startsOperand kind)
      then castKind? words else none, tail, fun behind => ?_⟩
  have ahead := front behind
  unfold castAhead?
  simp only [kindOf_cons, List.drop_succ_cons, List.drop_zero, ahead]
  cases opening.kind.isPunct .leftParen with
  | false => rfl
  | true =>
      simp only [Bool.true_and, if_true]
      split <;> rfl

/-- No cast is ahead of an operand if there is none in front of another next token like it. -/
theorem castAhead?_eq_none
    {opening closing : Token}
    {inner rest behind : List Token}
    (notName : ∀ word, closing.kind ≠ .name word)
    (same : kindOf behind = kindOf rest)
    (none : castAhead? (opening :: (inner ++ closing :: rest)) = none) :
    castAhead? (opening :: (inner ++ closing :: behind)) = .none := by
  obtain ⟨cast, tail, ahead⟩ := @castAhead?_append opening closing notName inner
  have sameKind : kindOf (tail ++ behind) = kindOf (tail ++ rest) := by
    cases tail with
    | nil => exact same
    | cons token tail => rfl
  rw [ahead, Option.map_eq_none_iff] at none
  rw [ahead, sameKind, none]
  rfl

/-- No cast is ahead of an operand with the parentheses of the operand, if there was none. -/
theorem castAhead?_eq_none_of_primary
    {taken rest behind : List Token}
    (same : kindOf behind = kindOf rest)
    (none : castAhead? (taken ++ rest) = none)
    (closes :
      (kindOf (taken ++ rest)).isPunct .leftParen = true →
        ∃ opening inner closing,
          taken ++ rest = opening :: (inner ++ closing :: rest) ∧
            closing.kind = .punct .rightParen) :
    castAhead? (taken ++ behind) = .none := by
  have sameKind : kindOf (taken ++ behind) = kindOf (taken ++ rest) := by
    cases taken with
    | nil => exact same
    | cons token taken => rfl
  cases opens : (kindOf (taken ++ rest)).isPunct .leftParen with
  | false => exact if_neg (by rw [sameKind, opens]; exact Bool.false_ne_true)
  | true =>
      obtain ⟨opening, inner, closing, whole, isClosing⟩ := closes opens
      have isTaken : taken = opening :: (inner ++ [closing]) :=
        List.append_cancel_right (whole.trans (by simp))
      rw [whole] at none
      rw [isTaken, List.cons_append, List.append_assoc]
      exact castAhead?_eq_none (fun word isName => by rw [isClosing] at isName; cases isName)
        same none

/-- A cast that is ahead is ahead in front of another operand that starts with the same token. -/
theorem castAhead?_eq_some
    {tokens after : List Token}
    {kind : CastKind}
    (some : castAhead? tokens = some (kind, after)) :
    ∃ front,
      tokens = front ++ after ∧
        1 ≤ front.length ∧
        ∀ behind,
          kindOf behind = kindOf after → castAhead? (front ++ behind) = .some (kind, behind) := by
  obtain ⟨opening, names, closing, words, rfl, _, _, isClosing, _⟩ := exists_of_castAhead? some
  have notName : ∀ word, closing.kind ≠ .name word := by
    intro word isName
    rw [isClosing] at isName
    contradiction
  obtain ⟨cast, tail, ahead⟩ := castAhead?_append notName names
  rw [ahead] at some
  obtain ⟨found, isCast, same⟩ := Option.map_eq_some_iff.mp some
  obtain ⟨rfl, alone⟩ := Prod.mk.inj same
  cases List.self_eq_append_left.mp alone.symm
  refine ⟨opening :: (names ++ [closing]), by simp, by simp, fun behind sameKind => ?_⟩
  have onward := ahead behind
  rw [List.nil_append] at isCast onward
  rw [sameKind, isCast] at onward
  simpa using onward

end Casts

/-- What the expression parsers of a depth take, those of other depths take again. -/
structure ExpressionsReread (depth : Nat) : Prop where
  expression : ∀ other, Rereads (other + 1) 1 true (expression depth) (expression other)
  conditional : ∀ other, Rereads (other + 2) 1 true (conditional depth) (conditional other)
  operators :
    ∀ level other,
      level ≤ Operator.levels →
      Rereads (other + (level + 3)) 1 true (operators depth level) (operators other level)
  moreOperators :
    ∀ level other left,
      level < Operator.levels →
      Rereads other 0 true (moreOperators depth level left) (moreOperators other level left)
  unary : ∀ other, Rereads (other + 14) 1 true (unary depth) (unary other)
  suffixes :
    ∀ operand other, Rereads other 0 true (suffixes depth operand) (suffixes other operand)
  expressions :
    ∀ close other,
      Rereads (other + 1) 1 false (expressions depth close) (expressions other close)
  primary : ∀ other, Rereads (other + 15) 1 false (primary depth) (primary other)
  /-- An operand that starts with a parenthesis ends with one, around an expression. -/
  closes :
    ∀ tokens value rest,
      (kindOf tokens).isPunct .leftParen = true →
      (Parser.primary depth).run tokens = .ok (value, rest) →
      ∃ opening inner closing below,
        tokens = opening :: (inner ++ closing :: rest) ∧
          closing.kind = .punct .rightParen ∧
          (Parser.expression below).run (inner ++ closing :: rest) = .ok (value, closing :: rest)

/-- With no depth left, too little is allowed for the tokens that must be taken. -/
theorem Rereads.of_succ
    {parser : Nat → Parser α}
    {depth least slack : Nat}
    {looks : Bool}
    (rereads :
      ∀ other, Rereads (other + 1 + slack) least looks (parser (depth + 1)) (parser (other + 1)))
    (short : slack ≤ 32 * least)
    (other : Nat) :
    Rereads (other + slack) least looks (parser (depth + 1)) (parser other) := by
  cases other with
  | zero => exact (rereads depth).of_short (by omega)
  | succ other => exact rereads other

namespace ExpressionsReread

variable {depth : Nat}

/-- At no depth nothing has been read. -/
theorem zero : ExpressionsReread 0 where
  expression _ := .tooDeep
  conditional _ := .tooDeep
  operators _ _ _ := .tooDeep
  moreOperators _ _ _ _ := .tooDeep
  unary _ := .tooDeep
  suffixes _ _ := .tooDeep
  expressions _ _ := .tooDeep
  primary _ := .tooDeep
  closes _ _ _ _ ran := nomatch ran

/-- The tokens of an expression give it again, whatever follows them. -/
theorem expression_succ
    (reread : ExpressionsReread depth)
    (other : Nat) :
    Rereads (other + 1) 1 true (Parser.expression (depth + 1)) (Parser.expression other) := by
  refine Rereads.of_succ (fun other => ?_) (by omega) other
  refine (reread.conditional other).bind (other + 2) 0 true (fun target => ?_) (by omega)
    (by omega) (by simp)
  refine .peekThen (fun kind => ?_) (.inr rfl)
  split
  · exact (Rereads.pure _ _ target).onKind kind
  · next op isMark =>
      have notEnd : kind.isEnd = false := by cases kind <;> first | rfl | contradiction
      split
      · refine .skipThen (other + 1) 1 true ?_ notEnd (by omega) (by omega) id
        exact (reread.expression other).bind (other + 1) 0 true
          (fun value => .pure _ _ _) (by omega) (by omega) (by simp)
      · exact (Rereads.fail _ _).onKind kind

/-- The tokens of a conditional give it again. -/
theorem conditional_succ
    (reread : ExpressionsReread depth)
    (other : Nat) :
    Rereads (other + 2) 1 true (Parser.conditional (depth + 1)) (Parser.conditional other) := by
  refine Rereads.of_succ (fun other => ?_) (by omega) other
  refine (reread.operators 0 other (Nat.zero_le _)).bind (other + 3) 0 true (fun test => ?_)
    (by omega) (by omega) (by simp)
  refine .askThen (asks_takes .question) (other + 1) 2 true ?_ (.pure _ _ test) (by omega)
    (by omega) (by simp)
  refine (reread.expression other).bind (other + 1) 2 true (fun whenTrue => ?_) (by omega)
    (by omega) (by simp)
  refine (Rereads.expect other .colon _).bind (other + 1) 1 true (fun _ => ?_) (by omega)
    (by omega) (by simp)
  exact (reread.expression other).bind (other + 1) 0 true (fun whenFalse => .pure _ _ _)
    (by omega) (by omega) (by simp)

/-- The tokens of operators give them again. -/
theorem operators_succ
    (reread : ExpressionsReread depth)
    (level other : Nat)
    (isLevel : level ≤ Operator.levels) :
    Rereads (other + (level + 3)) 1 true (Parser.operators (depth + 1) level)
      (Parser.operators other level) := by
  have atMost : level ≤ 10 := isLevel
  refine @Rereads.of_succ _ (Parser.operators · level) _ _ _ _ (fun other => ?_) (by omega) other
  unfold Parser.operators
  split
  · next below =>
      exact (reread.operators (level + 1) other below).bind other 0 true
        (fun left => reread.moreOperators level other left below) (by omega) (by omega) (by simp)
  · next above =>
      have isTop : level = 10 := by
        unfold Operator.levels at above
        omega
      subst isTop
      exact reread.unary other

theorem moreOperators_succ
    (reread : ExpressionsReread depth)
    (level other : Nat)
    (left : Expr)
    (isLevel : level < Operator.levels) :
    Rereads other 0 true (Parser.moreOperators (depth + 1) level left)
      (Parser.moreOperators other level left) := by
  have atMost : level < 10 := isLevel
  refine @Rereads.of_succ _ (Parser.moreOperators · level left) _ _ 0 _ (fun other => ?_)
    (by omega) other
  refine .peekThen (fun kind => ?_) (.inr rfl)
  split
  · exact (Rereads.pure _ _ left).onKind kind
  · next op isOperator =>
      have notEnd : kind.isEnd = false := by cases kind <;> first | rfl | contradiction
      refine .skipThen (other + 1) 1 true ?_ notEnd (by omega) (by omega) id
      exact (reread.operators (level + 1) other isLevel).bind other 0 true
        (fun right => reread.moreOperators level other _ isLevel) (by omega) (by omega) (by simp)

/-- The tokens of suffixes give them again, unless another suffix follows. -/
theorem suffixes_succ
    (reread : ExpressionsReread depth)
    (operand : Expr)
    (other : Nat) :
    Rereads other 0 true (Parser.suffixes (depth + 1) operand)
      (Parser.suffixes other operand) := by
  refine @Rereads.of_succ _ (Parser.suffixes · operand) _ _ 0 _ (fun other => ?_)
    (by omega) other
  refine .lineThen (fun line => ?_) (.inr rfl)
  refine .askThen (asks_takes .leftParen) other 1 true ?_ ?_ (by omega) (by omega) (by simp)
  · exact (reread.expressions .rightParen other).bind other 0 true
      (fun values => reread.suffixes _ other) (by omega) (by omega) (by simp)
  refine .askThen (asks_takes .dot) other 1 true ?_ ?_ (by omega) (by omega) (by simp)
  · exact (Rereads.name other _).bind other 0 true
      (fun member => reread.suffixes _ other) (by omega) (by omega) (by simp)
  refine .askThen (asks_takes .leftBracket) other 2 true ?_ ?_ (by omega) (by omega) (by simp)
  · refine (reread.expression other).bind other 1 true (fun position => ?_) (by omega)
      (by omega) (by simp)
    exact (Rereads.expect other .rightBracket _).bind other 0 true
      (fun _ => reread.suffixes _ other) (by omega) (by omega) (by simp)
  refine .peekThen (fun kind => ?_) (.inr rfl)
  split
  · next step isStep =>
      have notEnd : kind.isEnd = false := by cases kind <;> first | rfl | contradiction
      exact .skipThen other 0 true (reread.suffixes _ other) notEnd (by omega) (by omega) id
  · exact (Rereads.pure _ _ operand).onKind kind

/-- The tokens of a list give it again. -/
theorem expressions_succ
    (reread : ExpressionsReread depth)
    (close : Punct)
    (other : Nat) :
    Rereads (other + 1) 1 false (Parser.expressions (depth + 1) close)
      (Parser.expressions other close) := by
  refine @Rereads.of_succ _ (Parser.expressions · close) _ _ _ _ (fun other => ?_)
    (by omega) other
  refine .askThen (asks_takes close) (other + 2) 0 false (.pure _ _ _) ?_ (by omega) (by omega)
    (by simp)
  refine (reread.expression other).bind (other + 1) 1 false (fun first => ?_) (by omega)
    (by omega) (by simp)
  refine .askThen (asks_takes .comma) (other + 1) 1 false ?_ ?_ (by omega) (by omega) (by simp)
  · exact (reread.expressions close other).bind (other + 1) 0 false (fun others => .pure _ _ _)
      (by omega) (by omega) (by simp)
  · exact (Rereads.expect (other + 1) close _).bind (other + 1) 0 false (fun _ => .pure _ _ _)
      (by omega) (by omega) (by simp)

/-- The tokens of a primary give it again. -/
theorem primary_succ
    (reread : ExpressionsReread depth)
    (other : Nat) :
    Rereads (other + 15) 1 false (Parser.primary (depth + 1)) (Parser.primary other) := by
  refine Rereads.of_succ (fun other => ?_) (by omega) other
  refine .lineThen (fun line => ?_) (.inl (Nat.le_refl 1))
  refine .peekThen (fun kind => ?_) (.inl (Nat.le_refl 1))
  by_cases isEnd : kind.isEnd = true
  · obtain rfl : kind = .endOfInput := by cases kind <;> first | rfl | contradiction
    exact (Rereads.of_fails fun tokens value rest ran => by
      obtain ⟨_, between, _, failed⟩ := run_bind_eq_ok ran
      contradiction).onKind _
  refine .skipThen (other + 1) 0 false ?_ (Bool.eq_false_iff.mpr isEnd) (by omega) (by omega) id
  split
  case h_9 =>
    refine (reread.expression other).bind (other + 1) 1 false (fun inner => ?_) (by omega)
      (by omega) (by simp)
    exact (Rereads.expect (other + 1) .rightParen _).bind (other + 1) 0 false
      (fun _ => .pure _ _ inner) (by omega) (by omega) (by simp)
  case h_10 =>
    exact (reread.expressions .rightBracket other).bind (other + 1) 0 false
      (fun items => .pure _ _ _) (by omega) (by omega) (by simp)
  case h_11 => exact Rereads.fail _ _
  all_goals exact Rereads.pure _ _ _

/-- A choice between a cast and an operand looks no further than behind the operand. -/
theorem unary_succ
    (reread : ExpressionsReread depth)
    (other : Nat) :
    Rereads (other + 14) 1 true (Parser.unary (depth + 1)) (Parser.unary other) := by
  refine Rereads.of_succ (fun other => ?_) (by omega) other
  refine .lineThen (fun line => ?_) (.inr rfl)
  refine .peekThen (fun kind => ?_) (.inr rfl)
  split
  · next op isOp =>
      have notEnd : kind.isEnd = false := by cases kind <;> first | rfl | contradiction
      refine .skipThen (other + 14) 1 true ?_ notEnd (by omega) (by omega) id
      exact (reread.unary other).bind (other + 14) 0 true (fun operand => .pure _ _ _) (by omega)
        (by omega) (by simp)
  refine (Rereads.peekThen (fun kind => ?_) (.inr rfl)).onKind _
  split
  · next step isStep =>
      have notEnd : kind.isEnd = false := by cases kind <;> first | rfl | contradiction
      refine .skipThen (other + 14) 1 true ?_ notEnd (by omega) (by omega) id
      exact (reread.unary other).bind (other + 14) 0 true (fun operand => .pure _ _ _) (by omega)
        (by omega) (by simp)
  refine (Rereads.askThen (asks_takesKeyword .awaitWord) (other + 14) 1 true ?_ ?_ (by omega)
    (by omega) (by simp)).onKind _
  · exact (reread.unary other).bind (other + 14) 0 true (fun operand => .pure _ _ _) (by omega)
      (by omega) (by simp)
  intro tokens value rest _ ran
  obtain ⟨_, _, got, ran⟩ := run_bind_eq_ok ran
  cases got
  split at ran
  · next kind after ahead =>
      obtain ⟨_, _, isSet, ran⟩ := run_bind_eq_ok ran
      cases isSet
      obtain ⟨operand, between, ranOperand, ran⟩ := run_bind_eq_ok ran
      cases ran
      obtain ⟨taken, rfl, long, again⟩ := reread.unary other after operand rest trivial ranOperand
      obtain ⟨front, rfl, frontLong, aheadAgain⟩ := castAhead?_eq_some ahead
      refine ⟨front ++ taken, (List.append_assoc ..).symm, by simp; omega, ?_⟩
      intro behind few same
      rw [List.length_append] at few
      have sameKind := (next_eq long same (.inr rfl)).1
      refine run_bind rfl ?_
      simp only [List.append_assoc, aheadAgain _ sameKind]
      exact run_bind rfl (run_bind (again behind (by omega) same) rfl)
  · next noCast =>
      obtain ⟨operand, between, ranOperand, ranSuffixes⟩ := run_bind_eq_ok ran
      obtain ⟨taken, rfl, long, again⟩ :=
        reread.primary other tokens operand between trivial ranOperand
      obtain ⟨suffix, rfl, _, againSuffixes⟩ :=
        reread.suffixes operand other between value rest trivial ranSuffixes
      refine ⟨taken ++ suffix, (List.append_assoc ..).symm, by simp; omega, ?_⟩
      intro behind few same
      rw [List.length_append] at few
      have sameKind := (next_eq (Nat.zero_le suffix.length) same (.inr rfl)).1
      have stillNoCast := castAhead?_eq_none_of_primary sameKind noCast fun parenthesised => by
        obtain ⟨opening, inner, closing, _, whole, isClosing, _⟩ :=
          reread.closes _ operand _ parenthesised ranOperand
        exact ⟨opening, inner, closing, whole, isClosing⟩
      refine run_bind rfl ?_
      simp only [List.append_assoc, stillNoCast]
      exact run_bind (again _ (by omega) nofun) (againSuffixes behind (by omega) same)

/-- The parentheses of an operand are read together. -/
theorem closes_succ
    {tokens rest : List Token}
    {value : Expr}
    (reread : ExpressionsReread depth)
    (opens : (kindOf tokens).isPunct .leftParen = true)
    (ran : (Parser.primary (depth + 1)).run tokens = .ok (value, rest)) :
    ∃ opening inner closing below,
      tokens = opening :: (inner ++ closing :: rest) ∧
        closing.kind = .punct .rightParen ∧
        (Parser.expression below).run (inner ++ closing :: rest) =
          .ok (value, closing :: rest) := by
  cases tokens with
  | nil => contradiction
  | cons opening tokens =>
      have isOpening : opening.kind = .punct .leftParen := eq_of_isPunct opens
      obtain ⟨_, _, got, ran⟩ := run_bind_eq_ok ran
      cases got
      obtain ⟨_, _, peeked, ran⟩ := run_bind_eq_ok ran
      cases peeked
      obtain ⟨_, between, skipped, ran⟩ := run_bind_eq_ok ran
      rw [run_skip isOpening rfl] at skipped
      cases skipped
      simp only [kindOf_cons, isOpening] at ran
      obtain ⟨inner, after, ranInner, ran⟩ := run_bind_eq_ok ran
      obtain ⟨_, _, expected, ran⟩ := run_bind_eq_ok ran
      cases ran
      obtain ⟨taken, rfl, _⟩ := reread.expression 0 _ _ after trivial ranInner
      obtain ⟨closing, rfl, isClosing⟩ := exists_of_run_expect expected
      exact ⟨opening, taken, closing, depth, rfl, isClosing, ranInner⟩

theorem succ (reread : ExpressionsReread depth) : ExpressionsReread (depth + 1) where
  expression := reread.expression_succ
  conditional := reread.conditional_succ
  operators := reread.operators_succ
  moreOperators := reread.moreOperators_succ
  unary := reread.unary_succ
  suffixes := reread.suffixes_succ
  expressions := reread.expressions_succ
  primary := reread.primary_succ
  closes _ _ _ := reread.closes_succ

end ExpressionsReread

/-- At each depth expressions are read again from their tokens. -/
theorem expressionsReread (depth : Nat) : ExpressionsReread depth := by
  induction depth with
  | zero => exact .zero
  | succ depth reread => exact reread.succ

end Parser

end LedSketch.Script
