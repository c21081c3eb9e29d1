import LedSketch.Proofs.Sketch.CommentMarks
import LedSketch.Proofs.Sketch.LiteralRun

namespace LedSketch.Sketch

/-!
# Literals survive

What a rule makes of a text still has every literal of it, unless the rule leaves literals
out or one of its matches cuts through a literal or a comment.  All that is asked of a match is
asked of the text that it stands in, and nothing of what the rule makes of it.
-/

open Script (Token tokenize)
open Script.Lexeme

/-- What is known some characters behind the stretches at the start of a text. -/
def placeBehind
    (text : List Char)
    (earlier : List Segment)
    (count : Nat) :
    Lexical :=
  Lexical.atOffset text ((earlier.flatMap Segment.before).length + count)

/--
What a match has to be like so that its literals survive.  It cuts neither a literal nor a
comment, no mark is made of the text around it where it is removed, and what is left out of it
has no quotes.
-/
structure Rule.Respects
    (rule : Rule)
    (text : List Char)
    (earlier : List Segment)
    (old : List Char)
    (later : List Segment) :
    Prop where
  /-- The match does not begin in the middle of a comment mark. -/
  begins : (placeBehind text earlier 0).passed = false
  /-- The match does not end inside of a literal. -/
  ends : (placeBehind text earlier old.length).inLiteral = false
  /-- The match lies outside of comments or in one comment. -/
  oneKind :
    ∀ count ≤ old.length,
      (placeBehind text earlier count).inComment = (placeBehind text earlier 0).inComment
  /-- A frequency is removed, with those behind it, and the text around them meets. -/
  noMark :
    rule = Catalogue.frequencySuffix ∨ rule = Catalogue.frequencyPrefix →
      ∀ c ∈ (earlier.flatMap Segment.before).getLast?,
        ¬ JoinsMark (placeBehind text earlier 0).mode c
            ((later.dropWhile Segment.isReplaced).flatMap Segment.before).head?
  /-- The size of an array is dropped. -/
  unquotedSize :
    rule = Catalogue.arrayInitialisers →
      (placeBehind text earlier 0).inComment = false →
      ∀ c ∈ enclosed '[' ']' old, c ∉ quotes
  /-- Parameters are reduced to names and defaults. -/
  inDefault :
    rule = Catalogue.functions →
      (placeBehind text earlier 0).inComment = false →
      ∀ parameter ∈ (enclosed '(' ')' old).splitOn ',',
        (∃ quote ∈ quotes, quote ∈ parameter) → QuotesInDefault parameter
  /--
  Parameters are told apart at every comma, also at one in a literal, which cuts the literal
  in two.  So nothing is said of a default with a comma in a literal.
  -/
  noComma :
    rule = Catalogue.functions →
      (placeBehind text earlier 0).inComment = false →
      ∀ found, literals old = some found → ∀ spelled ∈ found, ',' ∉ spelled

/--
Whether a match has to be respected.  The rule that strips comments takes whole comments, so
of its matches only those inside of comments have to be.
-/
def Rule.Concerns
    (rule : Rule)
    (text : List Char)
    (earlier : List Segment) :
    Prop :=
  rule = Catalogue.comments →
    (placeBehind text earlier 0).inComment = true ∨ (placeBehind text earlier 0).passed = true

namespace Catalogue

section Steps

variable {reading follower next : Reading} {old new behind otherBehind : List Char}
  {state : Lexical} {literals others : List (List Char)}

/-- A reading outside of literals and comments is followed by one that is there too. -/
theorem code_of_follows
    (follows : Follows behind reading follower)
    (isCode : reading.state = Lexical.code 0)
    (closed : reading.opened = []) :
    ∃ literals others,
      reading = .code literals ∧ follower = .code others ∧ literals.Sublist others := by
  cases follows with
  | @same state opened literals others kept =>
      obtain rfl : state = Lexical.code 0 := isCode
      obtain rfl : opened = [] := closed
      exact ⟨literals, others, rfl, rfl, kept⟩
  | stripped => simp [Lexical.code] at isCode

/-- The readings stay in step over a match whose literals are carried over. -/
theorem follows_carried
    (kept : literals.Sublist others)
    {depth : Int}
    (read : (Reading.code literals).readAll old behind.head? = some next)
    (ends : next.state.inLiteral = false)
    (outside :
      ∀ count ≤ old.length,
        ((Lexical.code depth).readMany count (old ++ behind)).inComment = false)
    (carries : ∀ found, CodeText behind.head? old found → Carries new found) :
    ∃ nextFollower,
      (Reading.code others).readAll new otherBehind.head? = some nextFollower ∧
        Follows behind next nextFollower := by
  obtain ⟨found, code, rfl⟩ := CodeText.of_readAll read ends outside
  obtain ⟨made, codeNew, keptFound⟩ := carries found code
  exact ⟨_, (codeNew _).readAll others, .same (kept.append keptFound)⟩

/-- The readings stay in step over a comment that is stripped. -/
theorem follows_trivia
    (kept : literals.Sublist others)
    (trivia : Trivia behind old)
    (lineEnds : ∀ c ∈ new, c = '\n')
    (read : (Reading.code literals).readAll old behind.head? = some next) :
    ∃ nextFollower,
      (Reading.code others).readAll new otherBehind.head? = some nextFollower ∧
        Follows behind next nextFollower := by
  have plain : ∀ c ∈ new, isPlain c = true := fun c member => by
    rw [lineEnds c member]
    rfl
  have codeNew : CodeText otherBehind.head? new [] := .of_isPlain plain
  have followerRead := codeNew.readAll others
  rw [List.append_nil] at followerRead
  obtain ⟨ready, notLiteral⟩ := (@Lexical.Ready.code 0 (old ++ behind)).trivia trivia
  have isNext := @Reading.readAll_outside old behind (Lexical.code 0) literals notLiteral
  refine ⟨_, followerRead, ?_⟩
  have same : some next = some _ := read.symm.trans isNext
  cases same
  generalize (Lexical.code 0).readMany old.length (old ++ behind) = last at ready
  cases ready with
  | code => exact .same kept
  | commented ends => exact .stripped kept ends

/-- The readings stay in step over a match inside of a comment. -/
theorem follows_comment
    (follows : Follows (old ++ behind) reading follower)
    (isState : reading.state = state.flat)
    (closed : reading.opened = [])
    (notPassed : state.passed = false)
    (notEmpty : old ≠ [])
    (inside : ∀ count ≤ old.length, (state.readMany count (old ++ behind)).inComment = true)
    (read : reading.readAll old behind.head? = some next)
    (sameLineEnds : new.count '\n' = old.count '\n')
    (notClosed : ¬ ['*', '/'] <:+: old → ¬ ['*', '/'] <:+: new ++ otherBehind.head?.toList) :
    ∃ nextFollower,
      follower.readAll new otherBehind.head? = some nextFollower ∧
        Follows behind next nextFollower := by
  obtain ⟨stays, oneLine, leavesOpen⟩ := Lexical.readMany_comment notPassed inside
  have notLiteral : ∀ count ≤ old.length,
      (state.readMany count (old ++ behind)).inLiteral = false := by
    intro count within
    exact Lexical.inLiteral_of_inComment (inside count within)
  cases follows with
  | @same readState opened literals others kept =>
      obtain rfl : readState = state.flat := isState
      obtain rfl : opened = [] := closed
      have isNext := @Reading.readAll_outside old behind state literals notLiteral
      rw [stays] at isNext
      have same : some next = some _ := read.symm.trans isNext
      cases same
      have quiet (isLine : state.mode = .lineComment) : '\n' ∉ new := by
        have noLineEnd := List.count_eq_zero.mpr (oneLine isLine)
        rw [← sameLineEnds] at noLineEnd
        exact List.count_eq_zero.mp noLineEnd
      have inComment : state.flat.inComment = true := inside 0 (Nat.zero_le _)
      exact ⟨_, Reading.readAll_comment rfl inComment notPassed quiet fun isBlock =>
        notClosed (leavesOpen isBlock), .same kept⟩
  | stripped kept ends =>
      -- A line comment that has been left out is over where a match begins.
      have isLine : state.mode = .lineComment := (congrArg Lexical.mode isState).symm
      obtain ⟨c, more, rfl⟩ := List.exists_cons_of_ne_nil notEmpty
      obtain rfl : c = '\n' := by simpa using ends c rfl
      exact absurd List.mem_cons_self (oneLine isLine)

end Steps

section Run

variable {rule : Rule} {text stretch old new : List Char} {earlier later : List Segment}
  {segment : Segment} {reading follower next : Reading}

theorem text_of_split
    (member : rule ∈ rules)
    (split : rule.segments text = earlier ++ segment :: later) :
    text =
      earlier.flatMap Segment.before ++ (segment.before ++ later.flatMap Segment.before) := by
  obtain ⟨covered, _⟩ := rule.segments_keepLines member text
  rw [split] at covered
  simpa using covered.symm

theorem length_le_of_split
    (member : rule ∈ rules)
    (split : rule.segments text = earlier ++ segment :: later) :
    (segment.before ++ later.flatMap Segment.before).length ≤ text.length := by
  have lengths := congrArg List.length (text_of_split member split)
  rw [List.length_append] at lengths
  omega

/-- Places in a stretch are reached from its start. -/
theorem placeBehind_eq
    (member : rule ∈ rules)
    (split : rule.segments text = earlier ++ segment :: later)
    (count : Nat) :
    placeBehind text earlier count =
      (placeBehind text earlier 0).readMany count
        (segment.before ++ later.flatMap Segment.before) := by
  unfold placeBehind Lexical.atOffset
  rw [text_of_split member split, Lexical.readMany_append, Nat.add_zero]

/-- Where no literal and no comment is and no mark is cut, there is code. -/
theorem eq_code_of_outside
    (notLiteral : (placeBehind text earlier 0).inLiteral = false)
    (outside : (placeBehind text earlier 0).inComment = false)
    (notPassed : (placeBehind text earlier 0).passed = false) :
    ∃ depth, placeBehind text earlier 0 = Lexical.code depth := by
  have notEscaped : (placeBehind text earlier 0).escaped = false := by
    refine Bool.eq_false_iff.mpr fun escaped => ?_
    have inLiteral := Lexical.inLiteral_of_escaped (fun initially => by contradiction) escaped
    exact Bool.false_ne_true (notLiteral.symm.trans inLiteral)
  generalize placeBehind text earlier 0 = place at *
  obtain ⟨mode, escaped, passed, depth⟩ := place
  obtain rfl : escaped = false := notEscaped
  obtain rfl : passed = false := notPassed
  cases mode <;> first | exact ⟨depth, rfl⟩ | contradiction

/-- What is known where a reading of a text has come to a stretch. -/
theorem state_of_run
    (member : rule ∈ rules)
    (split : rule.segments text = earlier ++ segment :: later)
    (read :
      (Reading.code []).readAll (earlier.flatMap Segment.before)
        (segment.before ++ later.flatMap Segment.before).head? = some reading) :
    reading.state = (placeBehind text earlier 0).flat ∧
      (reading.state.inLiteral = false → reading.opened = []) := by
  refine ⟨?_, Reading.opened_of_readAll (fun _ => rfl) read⟩
  have initially : (Reading.code []).state = Lexical.initial.flat := rfl
  rw [Reading.state_of_readAll initially read]
  unfold placeBehind Lexical.atOffset
  rw [text_of_split member split, Nat.add_zero]

/-- A match that begins in a comment stays in it. -/
theorem inComment_of_respects
    (fits : rule.Respects text earlier old later)
    (member : rule ∈ rules)
    (split : rule.segments text = earlier ++ .replaced old new :: later)
    (inComment : (placeBehind text earlier 0).inComment = true) :
    ∀ count ≤ old.length,
      ((placeBehind text earlier 0).readMany count
        (old ++ later.flatMap Segment.before)).inComment = true := by
  intro count within
  rw [← inComment, ← fits.oneKind count within, placeBehind_eq member split count]
  rfl

/-- The readings stay in step over a match that is replaced. -/
theorem follows_replaced
    (member : rule ∈ rules)
    (keeping : rule ∉ deletingRules)
    (split : rule.segments text = earlier ++ .replaced old new :: later)
    (respects : rule.Concerns text earlier → rule.Respects text earlier old later)
    (isState : reading.state = (placeBehind text earlier 0).flat)
    (closed : reading.state.inLiteral = false → reading.opened = [])
    (follows : Follows (old ++ later.flatMap Segment.before) reading follower)
    (read : reading.readAll old (later.flatMap Segment.before).head? = some next) :
    ∃ nextFollower,
      follower.readAll new (later.flatMap Segment.after).head? = some nextFollower ∧
        Follows (later.flatMap Segment.before) next nextFollower := by
  obtain ⟨found, rfl, replaces⟩ := Rule.replaces_of_segments member split
  have notLiteral : (placeBehind text earlier 0).inLiteral = false := replaces.notLiteral
  have onward := placeBehind_eq member split
  have notOpened : reading.opened = [] := closed (isState ▸ notLiteral)
  cases inComment : (placeBehind text earlier 0).inComment with
  | true =>
      have fits := respects fun _ => .inl inComment
      have sameLineEnds : new.count '\n' = found.text.count '\n' :=
        (rule.segments_keepLines member text).2 (.replaced found.text new) (by simp [split])
      have notEmpty : found.text ≠ [] := (Pattern.matchAt?_sound replaces.matched).2.notEmpty
      exact follows_comment follows isState notOpened fits.begins notEmpty
        (inComment_of_respects fits member split inComment) read sameLineEnds fun leavesOpen =>
          not_infix_of_replaces member keeping replaces leavesOpen _
  | false =>
      cases passed : (placeBehind text earlier 0).passed with
      | true =>
          have fits := respects fun _ => .inr passed
          exact absurd fits.begins (by simp [passed])
      | false =>
          obtain ⟨depth, isCode⟩ := eq_code_of_outside notLiteral inComment passed
          obtain ⟨literals, others, rfl, rfl, kept⟩ :=
            code_of_follows follows (by rw [isState, isCode]; rfl) notOpened
          by_cases isComments : rule = comments
          · subst isComments
            obtain ⟨trivia, -, lineEnds⟩ :=
              trivia_of_replaces replaces (length_le_of_split member split)
            exact follows_trivia kept trivia lineEnds read
          · have fits := respects fun same => absurd same isComments
            have outside : ∀ count ≤ found.text.length,
                ((Lexical.code depth).readMany count
                  (found.text ++ later.flatMap Segment.before)).inComment = false := by
              intro count within
              rw [← inComment, ← fits.oneKind count within, onward count, isCode]
              rfl
            have ends : next.state.inLiteral = false := by
              rw [Reading.state_of_readAll isState read, Lexical.inLiteral_flat, ← fits.ends,
                onward found.text.length]
              rfl
            refine follows_carried kept read ends outside fun found code => ?_
            exact carries_of_replaces member keeping isComments replaces code
              (fun isArray => fits.unquotedSize isArray inComment)
              (fun isFunctions => fits.inDefault isFunctions inComment)
              fun isFunctions => fits.noComma isFunctions inComment found code.literals_eq

/-- A match that is respected makes no mark with the character in front of it. -/
theorem not_joinsMark_of_respects
    (member : rule ∈ rules)
    (keeping : rule ∉ deletingRules)
    (split : rule.segments text = earlier ++ .replaced old new :: later)
    (concerns : rule.Concerns text earlier)
    (fits : rule.Respects text earlier old later)
    {c : Char}
    (isLast : c ∈ (earlier.flatMap Segment.before).getLast?) :
    ¬ JoinsMark (placeBehind text earlier 0).mode c (new ++ later.flatMap Segment.after).head? := by
  obtain ⟨found, rfl, replaces⟩ := Rule.replaces_of_segments member split
  have onward : rule.segments text = (earlier ++ [.replaced found.text new]) ++ later := by
    simpa using split
  rcases standsApart_of_replaces member keeping replaces with apart | ⟨isRemoving, onlyLineEnds⟩
  · rw [List.head?_append_of_ne_nil _ apart.notEmpty]
    exact not_joinsMark apart.begins _ c
  rcases new with _ | ⟨first, new⟩
  · rw [List.nil_append]
    simp only [removingRules, List.mem_cons, List.not_mem_nil, or_false] at isRemoving
    rcases isRemoving with rfl | rfl | rfl | rfl
    · have inComment := (concerns rfl).resolve_right (by simp [fits.begins])
      obtain ⟨-, -, leavesOpen⟩ := Lexical.readMany_comment fits.begins
        (inComment_of_respects fits member split inComment)
      cases isMode : (placeBehind text earlier 0).mode with
      | code => simp [Lexical.inComment, isMode] at inComment
      | quote mark => exact id
      | lineComment => exact id
      | blockComment =>
          have ends := ends_of_stripped replaces (length_le_of_split member split)
            (leavesOpen isMode)
          exact not_joinsMark (opensNothing_after_of_lineEnd member onward (by decide) ends) _ c
    · rw [head?_after_of_frequency member (.inl rfl) onward]
      exact fits.noMark (.inl rfl) c isLast
    · rw [head?_after_of_frequency member (.inr rfl) onward]
      exact fits.noMark (.inr rfl) c isLast
    · have ends := ends_of_trailing replaces
      exact not_joinsMark (opensNothing_after_of_lineEnd member onward (by decide) ends) _ c
  · obtain rfl := onlyLineEnds first List.mem_cons_self
    refine not_joinsMark ?_ _ c
    rintro other ⟨⟩
    decide

/-- What follows a character does not matter if a replaced match follows it. -/
theorem read_eq_of_replaced
    (member : rule ∈ rules)
    (keeping : rule ∉ deletingRules)
    (split : rule.segments text = earlier ++ .replaced old new :: later)
    (respects : rule.Concerns text earlier → rule.Respects text earlier old later)
    {c : Char}
    (isLast : c ∈ (earlier.flatMap Segment.before).getLast?)
    {state : Lexical}
    (isPlace :
      (state.read c (old ++ later.flatMap Segment.before).head?).flat =
        (placeBehind text earlier 0).flat) :
    state.read c (new ++ later.flatMap Segment.after).head? =
      state.read c (old ++ later.flatMap Segment.before).head? := by
  by_cases concerns : rule.Concerns text earlier
  · have fits := respects concerns
    have samePassed := congrArg Lexical.passed isPlace
    have sameMode : (state.read c (old ++ later.flatMap Segment.before).head?).mode =
        (placeBehind text earlier 0).mode := by
      have same := congrArg Lexical.mode isPlace
      exact same
    rw [Lexical.passed_flat, Lexical.passed_flat, fits.begins] at samePassed
    refine Lexical.read_eq_of_noMark samePassed ?_
    rw [sameMode]
    exact not_joinsMark_of_respects member keeping split concerns fits isLast
  · -- A comment is replaced, and code goes on in front of its slash.
    unfold Rule.Concerns at concerns
    push Not at concerns
    obtain ⟨rfl, outside, notPassed⟩ := concerns
    obtain ⟨found, rfl, replaces⟩ := Rule.replaces_of_segments member split
    obtain ⟨depth, isCode⟩ := eq_code_of_outside replaces.notLiteral
      (Bool.eq_false_iff.mpr outside) (Bool.eq_false_iff.mpr notPassed)
    have enough := length_le_of_split member split
    obtain ⟨-, opens, -⟩ := trivia_of_replaces replaces enough
    have slash : (found.text ++ later.flatMap Segment.before).head? = some '/' := by
      rw [List.head?_append, opens, Option.some_or]
    rw [slash] at isPlace ⊢
    exact Lexical.read_eq_of_code (by rw [isPlace, isCode]; rfl)

/-- The readings stay in step over a stretch that is kept. -/
theorem follows_kept
    (member : rule ∈ rules)
    (keeping : rule ∉ deletingRules)
    (split : rule.segments text = earlier ++ .kept stretch :: later)
    (respects :
      ∀ old new others,
        later = .replaced old new :: others →
        rule.Concerns text (earlier ++ [.kept stretch]) →
        rule.Respects text (earlier ++ [.kept stretch]) old others)
    (isState : reading.state = (placeBehind text earlier 0).flat)
    (follows : Follows (stretch ++ later.flatMap Segment.before) reading follower)
    (read : reading.readAll stretch (later.flatMap Segment.before).head? = some next) :
    ∃ nextFollower,
      follower.readAll stretch (later.flatMap Segment.after).head? = some nextFollower ∧
        Follows (later.flatMap Segment.before) next nextFollower := by
  refine follows.readAll read fun c isLast state isNext => ?_
  rcases later with _ | ⟨_ | ⟨old, new⟩, later⟩
  · rfl
  · next kept =>
      have notEmpty : kept ≠ [] :=
        rule.before_ne_nil member (show .kept kept ∈ rule.segments text by simp [split])
      obtain ⟨first, more, rfl⟩ := List.exists_cons_of_ne_nil notEmpty
      rfl
  · have splitNext : rule.segments text =
        (earlier ++ [.kept stretch]) ++ .replaced old new :: later := by simpa using split
    refine read_eq_of_replaced member keeping splitNext (respects old new later rfl) ?_ ?_
    · rw [List.flatMap_append, List.flatMap_singleton]
      exact List.mem_getLast?_append_of_mem_getLast? isLast
    · refine isNext.trans ?_
      rw [Reading.state_of_readAll isState read]
      have behind : placeBehind text (earlier ++ [.kept stretch]) 0 =
          placeBehind text earlier stretch.length := by simp [placeBehind, Segment.before]
      rw [behind, placeBehind_eq member split stretch.length]
      rfl

/-- What a rule makes of a text is read in step with the text. -/
theorem follows_apply
    (member : rule ∈ rules)
    (keeping : rule ∉ deletingRules)
    (respects :
      ∀ earlier old new later,
        rule.segments text = earlier ++ .replaced old new :: later →
        rule.Concerns text earlier →
        rule.Respects text earlier old later)
    {last : Reading}
    (read : (Reading.code []).readAll text none = some last) :
    ∃ lastFollower,
      (Reading.code []).readAll (rule.apply text).1 none = some lastFollower ∧
        Follows [] last lastFollower := by
  rw [← (rule.segments_keepLines member text).1] at read
  refine follows_run (fun earlier segment later split reading follower next reached follows
    onward => ?_) read
  rw [List.flatMap_cons] at reached follows
  obtain ⟨isState, closed⟩ := state_of_run member split reached
  cases segment with
  | kept stretch =>
      refine follows_kept member keeping split (fun old new others isLater => ?_) isState follows
        onward
      refine respects (earlier ++ [.kept stretch]) old new others ?_
      simpa [isLater] using split
  | replaced old new =>
      exact follows_replaced member keeping split (respects earlier old new later split) isState
        closed follows onward

end Run

/--
What a rule makes of a text that is accepted has all literals of the text, complete, as they
are spelled and in their order, if the rule respects every match that it replaces.
-/
theorem literals_survive
    (rule : Rule)
    (text : List Char)
    (tokens : List Token)
    (member : rule ∈ rules)
    (keeping : rule ∉ deletingRules)
    (tokenized : tokenize text = .ok tokens)
    (respects :
      ∀ earlier old new later,
        rule.segments text = earlier ++ .replaced old new :: later →
        rule.Concerns text earlier →
        rule.Respects text earlier old later) :
    ∃ found,
      literals (rule.apply text).1 = some found ∧ (quotedSpellings tokens).Sublist found := by
  obtain ⟨last, read, ends⟩ := Option.bind_eq_some_iff.mp (literals_of_tokenize tokenized)
  obtain ⟨lastFollower, readAfter, follows⟩ := follows_apply member keeping respects read
  rw [Option.ite_none_left_eq_some] at ends
  obtain ⟨notLiteral, isSpelled⟩ := ends
  rw [literals, readAfter, Option.bind_some]
  cases follows with
  | same kept =>
      rw [if_neg notLiteral]
      cases isSpelled
      exact ⟨_, rfl, kept⟩
  | stripped kept =>
      cases isSpelled
      exact ⟨_, rfl, kept⟩

theorem notMem_deletingRules
    {rule : Rule}
    (otherName : rule.name ∉ deletingRules.map Rule.name) :
    rule ∉ deletingRules :=
  fun member => otherName (List.mem_map_of_mem member)

/-- The literal in the default of a parameter survives. -/
theorem literals_survive_in_defaults :
    let text := "void f(char c = '\\'', int n) \x7b say(\"z\"); \x7d".toList
    ∃ tokens,
      functions ∈ rules ∧ functions ∉ deletingRules ∧
        tokenize text = .ok tokens ∧
        (∀ earlier old new later,
          functions.segments text = earlier ++ .replaced old new :: later →
          functions.Concerns text earlier →
          functions.Respects text earlier old later) ∧
        (functions.apply text).1 =
          "async function f(c = '\\'', n) \x7b say(\"z\"); \x7d".toList ∧
        ∃ found,
          literals (functions.apply text).1 = some found ∧
            (quotedSpellings tokens).Sublist found := by
  intro text
  have member : functions ∈ rules := by simp [rules]
  have keeping : functions ∉ deletingRules := notMem_deletingRules (by decide)
  have tokenized : tokenize text = .ok _ := rfl
  have respects : ∀ earlier old new later,
      functions.segments text = earlier ++ .replaced old new :: later →
      functions.Concerns text earlier →
      functions.Respects text earlier old later := by
    intro earlier old new later split _
    have segments : functions.segments text =
        .replaced "void f(char c = '\\'', int n) \x7b".toList
            "async function f(c = '\\'', n) \x7b".toList ::
          " say(\"z\"); \x7d".toList.map fun c => .kept [c] := by
      decide
    rw [segments] at split
    rcases earlier with _ | ⟨first, earlier⟩
    · obtain ⟨replaced, rfl⟩ := List.cons_eq_cons.mp split
      cases replaced
      exact
        { begins := by decide
          ends := by decide
          oneKind := by decide
          noMark := fun isFrequency => by
            rcases isFrequency with same | same <;>
              exact absurd (congrArg Rule.name same) (by decide)
          unquotedSize := fun isArray => absurd (congrArg Rule.name isArray) (by decide)
          inDefault := fun _ _ parameter isParameter _ => by
            have parameters :
                (enclosed '(' ')'
                    "void f(char c = '\\'', int n) \x7b".toList).splitOn ',' =
                  ["char c = '\\''".toList, " int n".toList] := by
              decide
            rw [parameters] at isParameter
            simp only [List.mem_cons, List.not_mem_nil, or_false] at isParameter
            rcases isParameter with rfl | rfl <;> exact ⟨by decide, by decide⟩
          noComma := fun _ _ found isFound => by
            cases isFound
            decide }
    · obtain ⟨-, onward⟩ := List.cons_eq_cons.mp split
      have inRest : Segment.replaced old new ∈ " say(\"z\"); \x7d".toList.map fun c =>
          .kept [c] :=
        onward ▸ List.mem_append_right earlier List.mem_cons_self
      simp at inRest
  exact ⟨_, member, keeping, tokenized, respects, by decide,
    literals_survive functions text _ member keeping tokenized respects⟩

/-- The declared size of an array is dropped, with a literal that is in it. -/
theorem literals_lost_in_size :
    ¬ ∀ rule ∈ rules, rule ∉ deletingRules →
      ∀ (text : List Char) (tokens : List Token),
        tokenize text = .ok tokens →
        ∃ found,
          literals (rule.apply text).1 = some found ∧ (quotedSpellings tokens).Sublist found := by
  intro survive
  obtain ⟨found, isFound, kept⟩ := survive arrayInitialisers (by simp [rules])
    (notMem_deletingRules (by decide))
    "let a['x'] = \x7b1\x7d;".toList _ rfl
  have none : literals (arrayInitialisers.apply "let a['x'] = \x7b1\x7d;".toList).1 = some [] := by
    decide
  rw [none] at isFound
  cases isFound
  exact absurd kept (by decide)

end Catalogue

end LedSketch.Sketch
