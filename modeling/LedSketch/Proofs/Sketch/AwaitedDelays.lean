import LedSketch.Proofs.Sketch.DelayCalls

namespace LedSketch.Sketch

/-!
# Awaited delays

The rule for delays puts a keyword in front of some calls and changes nothing else.  Where it
has been applied, each call that it would await is awaited already or stands in a literal, so
applying it once more changes nothing.
-/

open Pattern Vocabulary Catalogue

/--
Whether the second text is the first one with some calls of delays awaited, where the word in
front of the parenthesis begins.  Every other character is the same.
-/
inductive AwaitsSome : Option Char → List Char → List Char → Prop where
  | nil {before : Option Char} : AwaitsSome before [] []
  | same
      {before : Option Char}
      {c : Char}
      {text out : List Char}
      (onward : AwaitsSome (some c) text out) :
      AwaitsSome before (c :: text) (c :: out)
  | awaited
      {before : Option Char}
      {text out : List Char}
      (call : DelayCall)
      (outside : isWordAt Text.isWordChar before = false)
      (onward : AwaitsSome (some '(') text out) :
      AwaitsSome before (call.text ++ text) (call.awaited ++ out)

section Inert

variable {c : Char}

/-- A blank opens and closes nothing. -/
theorem isInert_of_isBlank
    (isBlank : Text.isBlank c = true) :
    Lexical.isInert c = true := by
  have noMark : Lexical.isCommentMark c = false := by
    by_contra isMark
    simp only [Lexical.isCommentMark, Bool.not_eq_false, Bool.or_eq_true, decide_eq_true_eq]
      at isMark
    rcases isMark with rfl | rfl <;> contradiction
  rw [Lexical.isInert, Lexical.isNeutral_of_isBlank isBlank, noMark]
  rfl

/-- The names of delays open and close nothing. -/
theorem isInert_delayNames :
    ∀ name ∈ ["delayMicroseconds", "delay"], ∀ c ∈ name.toList, Lexical.isInert c = true := by
  decide

namespace DelayCall

/-- A call of a delay opens and closes no literal and no comment. -/
theorem isInert_text
    (call : DelayCall)
    (member : c ∈ call.text) :
    Lexical.isInert c = true := by
  simp only [text, List.mem_append, List.mem_singleton] at member
  rcases member with inName | inBlanks | rfl
  · exact isInert_delayNames call.name call.isDelay c inName
  · exact isInert_of_isBlank (call.areBlank c inBlanks)
  · rfl

/-- An awaited delay opens and closes no literal and no comment. -/
theorem isInert_awaited
    (call : DelayCall)
    (member : c ∈ call.awaited) :
    Lexical.isInert c = true := by
  have ofKeyword : ∀ c ∈ "await ".toList, Lexical.isInert c = true := by decide
  rcases List.mem_append.mp member with inKeyword | inCall
  · exact ofKeyword c inKeyword
  · rcases List.mem_append.mp inCall with inName | inBehind
    · exact isInert_delayNames call.name call.isDelay c inName
    · rcases List.mem_cons.mp inBehind with rfl | inLineEnds
      · rfl
      · exact isInert_of_isBlank (call.areBlank c (List.mem_filter.mp inLineEnds).1)

/-- A call is read like the same call awaited. -/
theorem readMany_awaited
    (call : DelayCall)
    {state : Lexical}
    (notLiteral : state.inLiteral = false)
    (text out : List Char) :
    state.readMany call.awaited.length (call.awaited ++ out) =
      state.readMany call.text.length (call.text ++ text) := by
  have inertText : ∀ c ∈ call.text, Lexical.isInert c = true := fun _ => call.isInert_text
  have inertAwaited : ∀ c ∈ call.awaited, Lexical.isInert c = true := fun _ => call.isInert_awaited
  obtain ⟨others, isText⟩ := call.begins []
  rw [List.append_nil] at isText
  obtain ⟨behind, isAwaited⟩ : ∃ behind, call.awaited = 'a' :: behind := ⟨_, rfl⟩
  have sameLines : others.contains '\n' = behind.contains '\n' := by
    have known : ∀ name ∈ ["delayMicroseconds", "delay"], '\n' ∉ name.toList := by decide
    have notInName := known call.name call.isDelay
    have notInKeyword : '\n' ∉ "await ".toList := by decide
    have behindFront {front rest : List Char} (notInFront : '\n' ∉ front) :
        '\n' ∈ front ++ rest ↔ '\n' ∈ rest := by
      rw [List.mem_append, or_iff_right notInFront]
    have onText : '\n' ∈ call.text ↔ '\n' ∈ call.blanks :=
      (behindFront notInName).trans (by simp)
    have onAwaited : '\n' ∈ call.awaited ↔ '\n' ∈ call.blanks :=
      (behindFront notInKeyword).trans ((behindFront notInName).trans (by simp))
    rw [isText] at onText
    rw [isAwaited] at onAwaited
    rw [Bool.eq_iff_iff, List.contains_iff_mem, List.contains_iff_mem]
    simpa using onText.trans onAwaited.symm
  rw [isText] at inertText ⊢
  rw [isAwaited] at inertAwaited ⊢
  rw [Lexical.readMany_inert inertText notLiteral (by decide),
    Lexical.readMany_inert inertAwaited notLiteral (by decide), sameLines]

end DelayCall

theorem IsLead.isInert
    {lead : List Char}
    (isLead : IsLead lead)
    (call : DelayCall)
    (member : c ∈ lead ++ call.text) :
    Lexical.isInert c = true := by
  rcases List.mem_append.mp member with inLead | inText
  · cases isLead with
    | none => contradiction
    | await isGap =>
        have ofKeyword : ∀ c ∈ "await".toList, Lexical.isInert c = true := by decide
        rcases List.mem_append.mp inLead with inKeyword | inGap
        · exact ofKeyword c inKeyword
        · exact isInert_of_isBlank (isGap.blank c inGap)
  · exact call.isInert_text inText

/-- What is inert is no mark of a comment. -/
theorem not_isCommentMark_of_isInert
    (inert : Lexical.isInert c = true) :
    Lexical.isCommentMark c = false := by
  rw [Lexical.isInert, Bool.and_eq_true, Bool.not_eq_true'] at inert
  exact inert.2

end Inert

/-- Whether a keyword that has been put into a text might begin in a stretch of it. -/
def mayAwait (before : Option Char) : List Char → Bool
  | [] => false
  | c :: rest => c = 'a' && !isWordAt Text.isWordChar before || mayAwait (some c) rest

/-- A keyword may begin in the first part of a text or in the second. -/
theorem mayAwait_append
    (before : Option Char)
    (first second : List Char) :
    mayAwait before (first ++ second) =
      (mayAwait before first || mayAwait (first.getLast?.or before) second) := by
  induction first generalizing before with
  | nil => rfl
  | cons c first inductionHypothesis =>
      have isLast : (c :: first).getLast?.or before = first.getLast?.or (some c) := by
        rw [List.getLast?_cons]
        cases first.getLast? <;> rfl
      rw [List.cons_append, mayAwait, inductionHypothesis, mayAwait, isLast, Bool.or_assoc]

/-- No keyword begins in a text without its first letter. -/
theorem mayAwait_of_noLetter
    {passed : List Char}
    (noLetter : 'a' ∉ passed)
    (before : Option Char) :
    mayAwait before passed = false := by
  induction passed generalizing before with
  | nil => rfl
  | cons c passed inductionHypothesis =>
      rw [List.mem_cons, not_or] at noLetter
      rw [mayAwait, inductionHypothesis noLetter.2, decide_eq_false (Ne.symm noLetter.1)]
      rfl

/-- Blanks have no letter. -/
theorem noLetter_of_blank
    {gap : List Char}
    (blank : ∀ c ∈ gap, Text.isBlank c = true) :
    'a' ∉ gap :=
  fun member => absurd (blank 'a' member) (by decide)

/-- No keyword begins inside of the call of a delay. -/
theorem DelayCall.mayAwait_text
    (call : DelayCall)
    (before : Option Char) :
    mayAwait before call.text = false := by
  have inName : mayAwait before call.name.toList = false := by
    have known :
        ∀ name ∈ ["delayMicroseconds", "delay"],
          name.toList.head? = some 'd' ∧ mayAwait (some 'd') name.toList.tail = false := by
      decide
    obtain ⟨isHead, inTail⟩ := known call.name call.isDelay
    rw [List.eq_cons_of_mem_head? isHead, mayAwait, inTail]
    rfl
  have noLetter : 'a' ∉ call.blanks ++ ['('] := by
    simpa using noLetter_of_blank call.areBlank
  rw [text, mayAwait_append, inName, mayAwait_of_noLetter noLetter]
  rfl

/-- No keyword begins inside of a call that is awaited already. -/
theorem IsLead.mayAwait_tail
    {lead tail : List Char}
    {call : DelayCall}
    {c : Char}
    (isLead : IsLead lead)
    (split : lead ++ call.text = c :: tail) :
    mayAwait (some c) tail = false := by
  cases isLead with
  | none =>
      have whole := call.mayAwait_text (some c)
      rw [List.nil_append] at split
      rw [split, mayAwait, Bool.or_eq_false_iff] at whole
      exact whole.2
  | @await gap isGap =>
      obtain ⟨rfl, rfl⟩ : 'a' = c ∧ "wait".toList ++ (gap ++ call.text) = tail := by
        simpa using split
      have inKeyword : mayAwait (some 'a') "wait".toList = false := rfl
      rw [mayAwait_append, mayAwait_append, inKeyword,
        mayAwait_of_noLetter (noLetter_of_blank isGap.blank), call.mayAwait_text]
      rfl

namespace AwaitsSome

variable {before : Option Char} {text out front : List Char}

/-- What comes before an awaited delay may be kept. -/
theorem append
    (front : List Char)
    (onward : AwaitsSome (front.getLast?.or before) text out) :
    AwaitsSome before (front ++ text) (front ++ out) := by
  induction front generalizing before with
  | nil => exact onward
  | cons c front inductionHypothesis =>
      refine .same (inductionHypothesis ?_)
      rw [List.getLast?_cons] at onward
      cases isLast : front.getLast? with
      | none => simpa [isLast] using onward
      | some last => simpa [isLast] using onward

/-- A stretch in which no keyword may have been put was there before. -/
theorem exists_of_append
    (awaits : AwaitsSome before text (front ++ out))
    (noKeyword : mayAwait before front = false) :
    ∃ rest, text = front ++ rest := by
  induction front generalizing before text with
  | nil => exact ⟨text, rfl⟩
  | cons c front inductionHypothesis =>
      rw [mayAwait, Bool.or_eq_false_iff] at noKeyword
      obtain ⟨notHere, notLater⟩ := noKeyword
      generalize isOut : c :: front ++ out = whole at awaits
      cases awaits with
      | nil => contradiction
      | same onward =>
          obtain ⟨rfl, rfl⟩ := List.cons_eq_cons.mp isOut
          obtain ⟨rest, rfl⟩ := inductionHypothesis onward notLater
          exact ⟨rest, rfl⟩
      | awaited call outside onward =>
          obtain ⟨rfl, -⟩ := List.cons_eq_cons.mp isOut
          rw [outside] at notHere
          contradiction

/-- What follows a character is read alike. -/
theorem read_head
    (awaits : AwaitsSome before text out)
    (state : Lexical)
    (c : Char) :
    state.read c out.head? = state.read c text.head? := by
  cases awaits with
  | nil => rfl
  | same onward => rfl
  | @awaited _ text out call outside onward =>
      obtain ⟨others, isText⟩ := call.begins text
      rw [isText]
      exact Lexical.read_following (by rintro c ⟨⟩; rfl) (by rintro c ⟨⟩; rfl) state c

end AwaitsSome

/-- Where no call begins, none begins in what the rule makes of the text. -/
theorem not_callsDelay
    {before other : Option Char}
    {c : Char}
    {text out : List Char}
    (sameEdge : isWordAt Text.isWordChar other = isWordAt Text.isWordChar before)
    (awaits : AwaitsSome (some c) text out)
    (none : ¬ CallsDelay before (c :: text)) :
    ¬ CallsDelay other (c :: out) := by
  rintro ⟨outside, lead, isLead, call, behind, whole⟩
  obtain ⟨first, tail, split⟩ : ∃ first tail, lead ++ call.text = first :: tail := by
    obtain ⟨first, isHead, -⟩ := isLead.beginsWord call []
    rw [List.append_nil] at isHead
    exact ⟨first, _, List.eq_cons_of_mem_head? isHead⟩
  rw [split] at whole
  obtain ⟨rfl, rfl⟩ := List.cons_eq_cons.mp whole
  obtain ⟨rest, rfl⟩ := awaits.exists_of_append (isLead.mayAwait_tail split)
  exact none ⟨sameEdge ▸ outside, lead, isLead, call, rest, by rw [split]; rfl⟩

/-- What the rule makes of a text, from what is known at its start on. -/
inductive AwaitsAll : Lexical → Option Char → List Char → List Char → Prop where
  | nil
      {state : Lexical}
      {before : Option Char} :
      AwaitsAll state before [] []
  | same
      {state : Lexical}
      {before : Option Char}
      {c : Char}
      {text out : List Char}
      (none : ¬ CallsDelay before (c :: text))
      (onward : AwaitsAll (state.read c text.head?) (some c) text out) :
      AwaitsAll state before (c :: text) (c :: out)
  | kept
      {state : Lexical}
      {before : Option Char}
      {lead text out : List Char}
      (isLead : IsLead lead)
      (call : DelayCall)
      (outside : isWordAt Text.isWordChar before = false)
      (stays : state.inLiteral = true ∨ lead ≠ [])
      (onward :
        AwaitsAll (state.readMany (lead ++ call.text).length (lead ++ call.text ++ text))
          (some '(') text out) :
      AwaitsAll state before (lead ++ call.text ++ text) (lead ++ call.text ++ out)
  | awaited
      {state : Lexical}
      {before : Option Char}
      {text out : List Char}
      (call : DelayCall)
      (outside : isWordAt Text.isWordChar before = false)
      (notLiteral : state.inLiteral = false)
      (onward :
        AwaitsAll (state.readMany call.text.length (call.text ++ text)) (some '(') text out) :
      AwaitsAll state before (call.text ++ text) (call.awaited ++ out)

theorem DelayCall.getLast?_text
    (call : DelayCall)
    (lead : List Char) :
    (lead ++ call.text).getLast? = some '(' := by
  simp [text]

/-- To await all delays in code is to await some delays. -/
theorem AwaitsAll.awaitsSome
    {state : Lexical}
    {before : Option Char}
    {text out : List Char}
    (awaits : AwaitsAll state before text out) :
    AwaitsSome before text out := by
  induction awaits with
  | nil => exact .nil
  | same none onward inductionHypothesis => exact .same inductionHypothesis
  | @kept state before lead text out isLead call outside stays onward inductionHypothesis =>
      refine .append (lead ++ call.text) ?_
      rw [call.getLast?_text]
      exact inductionHypothesis
  | awaited call outside notLiteral onward inductionHypothesis =>
      exact .awaited call outside inductionHypothesis

/-- The line ends of a call are kept behind its parenthesis. -/
theorem DelayCall.keepLines_awaited (call : DelayCall) :
    keepLines call.text ("await ".toList ++ call.name.toList ++ ['(']) = call.awaited := by
  have known : ∀ name ∈ ["delayMicroseconds", "delay"], name.toList.count '\n' = 0 := by decide
  have inName := known call.name call.isDelay
  have inKeyword : "await ".toList.count '\n' = 0 := by decide
  have lineEnds : call.blanks.filter (· = '\n') =
      List.replicate (call.blanks.count '\n') '\n' := by
    rw [← List.filter_beq]
    rfl
  delta awaited
  rw [keepLines, text, lineEnds]
  generalize "await ".toList = keyword at inKeyword ⊢
  simp [inName, inKeyword]

namespace DelayCall

/-- The same call with nothing in front of its parenthesis. -/
def bare (call : DelayCall) : DelayCall := ⟨call.name, [], call.isDelay, nofun⟩

/-- The line ends in the blanks of a call. -/
def lineEnds (call : DelayCall) : List Char := call.blanks.filter (· = '\n')

theorem eq_lineEnd_of_mem
    {c : Char}
    (call : DelayCall)
    (member : c ∈ call.lineEnds) :
    c = '\n' := by
  simpa using (List.mem_filter.mp member).2

/-- An awaited call is a call that is awaited already, and line ends behind it. -/
theorem awaited_eq_append (call : DelayCall) :
    call.awaited = ("await".toList ++ [' '] ++ call.bare.text) ++ call.lineEnds := by
  have regroup (keyword : List Char) :
      keyword ++ (call.name.toList ++ '(' :: call.lineEnds) =
        (keyword ++ call.bare.text) ++ call.lineEnds := by
    simp [text, bare]
  exact regroup ("await".toList ++ [' '])

/-- No word is in front of what follows an awaited call. -/
theorem outside_lineEnds (call : DelayCall) :
    isWordAt Text.isWordChar (call.lineEnds.getLast?.or (some '(')) = false := by
  cases isLast : call.lineEnds.getLast? with
  | none => rfl
  | some c =>
      obtain rfl := call.eq_lineEnd_of_mem (List.mem_of_getLast? isLast)
      rfl

end DelayCall

section Runs

variable {turns count offset : Nat} {state : Lexical} {before : Option Char}
  {text out rest lead : List Char} {found : Match} {call : DelayCall}

theorem segment_awaitDelays
    (notLiteral : state.inLiteral = false) :
    awaitDelays.segment state found =
      if awaitDelay found = found.text then .kept found.text
      else .replaced found.text (keepLines found.text (awaitDelay found)) := by
  simp only [Rule.segment, notLiteral, Bool.false_eq_true, if_false]
  rfl

/-- A call in a literal and a call that is awaited stay as they are. -/
theorem segment_kept
    (isAwaited : (found.group? 1).isSome ↔ lead ≠ [])
    (stays : state.inLiteral = true ∨ lead ≠ []) :
    awaitDelays.segment state found = .kept found.text := by
  cases inLiteral : state.inLiteral with
  | true => rw [Rule.segment, if_pos inLiteral]
  | false =>
      have notEmpty := stays.resolve_left (by simp [inLiteral])
      obtain ⟨keyword, isGroup⟩ := Option.isSome_iff_exists.mp (isAwaited.mpr notEmpty)
      rw [segment_awaitDelays inLiteral, if_pos (by simp only [awaitDelay, isGroup])]

/-- Any other call is awaited. -/
theorem segment_awaited
    (isAwaited : (found.group? 1).isSome ↔ ([] : List Char) ≠ [])
    (isName : found.group 2 = call.name.toList)
    (isText : found.text = call.text)
    (notLiteral : state.inLiteral = false) :
    awaitDelays.segment state found = .replaced call.text call.awaited := by
  have noKeyword : found.group? 1 = none := by simpa using isAwaited
  have made : awaitDelay found = "await ".toList ++ call.name.toList ++ ['('] := by
    simp only [awaitDelay, noKeyword, isName]
  have changed : awaitDelay found ≠ call.text := by
    obtain ⟨others, begins⟩ := call.begins []
    rw [List.append_nil] at begins
    rw [made, begins]
    simp
  rw [segment_awaitDelays notLiteral, isText, if_neg changed, made, call.keepLines_awaited]

/-- What the rule makes of a text is what it makes call by call. -/
theorem awaitsAll_segments
    (enough : text.length ≤ count)
    (enoughTurns : text.length ≤ turns) :
    AwaitsAll state before text
      ((awaitDelays.segmentsFrom state
        (awaitDelays.pattern.piecesFrom turns count ⟨before, text, offset⟩)).flatMap
          Segment.after) := by
  induction count generalizing text state before offset with
  | zero =>
      obtain rfl : text = [] := List.eq_nil_of_length_eq_zero (Nat.le_zero.mp enough)
      exact .nil
  | succ count inductionHypothesis =>
      cases text with
      | nil => exact .nil
      | cons c text =>
          by_cases calls : CallsDelay before (c :: text)
          · obtain ⟨outside, lead, isLead, call, behind, whole⟩ := calls
            rw [whole] at enough enoughTurns ⊢
            have fits : (lead ++ call.text).length ≤ turns := by
              rw [List.length_append] at enoughTurns
              omega
            obtain ⟨found, matched, isBehind, isLast, isAwaited, isName⟩ :=
              @matchAt?_call turns before behind lead offset call isLead outside fits
            obtain ⟨isText, notEmpty⟩ := Rule.text_of_matchAt? matched isBehind
            have positive := List.length_pos_iff.mpr notEmpty
            rw [List.length_append] at enough enoughTurns
            have later := @inductionHypothesis found.last.offset
              (state.readMany (lead ++ call.text).length (lead ++ call.text ++ behind))
              (some '(') behind (by omega) (by omega)
            have isPlace : found.last = ⟨some '(', behind, found.last.offset⟩ := by
              rw [← isLast, ← isBehind]
            rw [← isPlace] at later
            rw [Rule.segmentsFrom_found state matched isBehind, List.flatMap_cons]
            by_cases stays : state.inLiteral = true ∨ lead ≠ []
            · rw [segment_kept isAwaited stays, isText]
              exact .kept isLead call outside stays later
            · obtain ⟨notLiteral, noLead⟩ := not_or.mp stays
              obtain rfl := not_not.mp noLead
              rw [Bool.not_eq_true] at notLiteral
              rw [List.nil_append] at isText later ⊢
              rw [segment_awaited isAwaited isName isText notLiteral]
              exact .awaited call outside notLiteral later
          · have unmatched :
                awaitDelays.pattern.matchAt? turns ⟨before, c :: text, offset⟩ = none :=
              Option.eq_none_iff_forall_ne_some.mpr fun found matched =>
                calls (callsDelay_of_matchAt? matched)
            simp only [Pattern.piecesFrom, unmatched, Rule.segmentsFrom, List.flatMap_cons]
            rw [List.length_cons] at enough enoughTurns
            exact .same calls (inductionHypothesis (by omega) (by omega))

/-- The rule keeps what it has made of a text. -/
theorem AwaitsAll.keeps
    {other : Option Char}
    (awaits : AwaitsAll state before text out)
    (sameEdge : isWordAt Text.isWordChar other = isWordAt Text.isWordChar before)
    (enough : out.length ≤ turns) :
    awaitDelays.Keeps turns state other out := by
  induction awaits generalizing other with
  | nil => exact .nil
  | @same state before c text out none onward inductionHypothesis =>
      refine .plain (fun offset => ?_) ?_
      · exact Option.eq_none_iff_forall_ne_some.mpr fun found matched =>
          not_callsDelay sameEdge onward.awaitsSome none (callsDelay_of_matchAt? matched)
      · rw [onward.awaitsSome.read_head]
        exact inductionHypothesis rfl (Nat.le_of_succ_le enough)
  | @kept state before lead text out isLead call outside stays onward inductionHypothesis =>
      rw [List.length_append] at enough
      have noMarks : ∀ c ∈ lead ++ call.text, Lexical.isCommentMark c = false :=
        fun c member => not_isCommentMark_of_isInert (isLead.isInert call member)
      refine .found (some '(') (fun offset => ?_) ?_
      · obtain ⟨found, matched, isBehind, isLast, isAwaited, -⟩ :=
          @matchAt?_call turns other out lead offset call isLead (sameEdge.trans outside)
            (by omega)
        exact ⟨found, matched, isBehind, isLast, segment_kept isAwaited stays⟩
      · rw [Lexical.readMany_behind noMarks state out text]
        exact inductionHypothesis rfl (by omega)
  | @awaited state before text out call outside notLiteral onward inductionHypothesis =>
      -- The keyword makes a call that is awaited; the line ends behind it match nothing.
      have isLead : IsLead ("await".toList ++ [' ']) := .await ⟨List.cons_ne_nil ' ' [], by decide⟩
      have notEmpty : "await".toList ++ [' '] ≠ [] := by simp
      have isCall := call.awaited_eq_append
      generalize "await".toList ++ [' '] = lead at isLead notEmpty isCall
      have sameState := call.readMany_awaited notLiteral text out
      rw [isCall, List.append_assoc (lead ++ call.bare.text)] at sameState
      rw [isCall, List.append_assoc] at enough ⊢
      simp only [List.length_append] at enough
      refine .found (some '(') (fun offset => ?_) (.skip ?_ rfl ?_)
      · obtain ⟨found, matched, isBehind, isLast, isAwaited, -⟩ :=
          @matchAt?_call turns other (call.lineEnds ++ out) lead offset call.bare isLead
            (sameEdge.trans outside) (by simp only [List.length_append]; omega)
        exact ⟨found, matched, isBehind, isLast, segment_kept isAwaited (.inr notEmpty)⟩
      · intro c member
        rw [call.eq_lineEnd_of_mem member]
        rfl
      · have split := Lexical.readMany_append state (lead ++ call.bare.text)
          (call.lineEnds ++ out) call.lineEnds.length
        rw [← List.length_append, sameState] at split
        rw [← split]
        exact inductionHypothesis call.outside_lineEnds (by omega)

end Runs

/--
For every text, the rule for delays awaits some calls and changes nothing else, and applied
once more it makes no replacement.
-/
theorem awaiting_twice (text : List Char) :
    AwaitsSome none text (awaitDelays.apply text).1 ∧
      awaitDelays.apply (awaitDelays.apply text).1 = ((awaitDelays.apply text).1, 0) := by
  have awaits : AwaitsAll .initial none text (awaitDelays.apply text).1 :=
    awaitsAll_segments (Nat.le_refl _) (Nat.le_refl _)
  exact ⟨awaits.awaitsSome, Rule.apply_of_keeps (awaits.keeps rfl (Nat.le_refl _))⟩

/-- Line ends come behind the parenthesis, comments are no exception, and literals are. -/
example :
    (awaitDelays.apply "delay \n(5); await delay(6); /* delay( */ \"delay(7)\"".toList).1 =
      "await delay(\n5); await delay(6); /* await delay( */ \"delay(7)\"".toList := by
  decide +kernel

end LedSketch.Sketch
