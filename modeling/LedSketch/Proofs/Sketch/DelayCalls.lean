import LedSketch.Proofs.Sketch.Kept
import LedSketch.Proofs.Sketch.LoweredHeaders
import LedSketch.Proofs.Sketch.Words

namespace LedSketch.Sketch

/-!
# Calls of delays

The rule for delays finds the calls of delays that begin with a word, and nothing else.  A call
with the keyword in front of it is found from there on.
-/

open Pattern Vocabulary Catalogue

/-- The call of a delay up to its parenthesis, with white space behind the name. -/
structure DelayCall where
  name : String
  blanks : List Char
  isDelay : name ∈ ["delayMicroseconds", "delay"]
  areBlank : ∀ c ∈ blanks, Text.isBlank c = true

namespace DelayCall

/-- The call as it is written. -/
def text (call : DelayCall) : List Char := call.name.toList ++ (call.blanks ++ ['('])

/-- The call behind its keyword; line ends in front of the parenthesis come behind it. -/
def awaited (call : DelayCall) : List Char :=
  "await ".toList ++ (call.name.toList ++ '(' :: call.blanks.filter (· = '\n'))

end DelayCall

/-- The keyword of an awaited call with white space behind it, or nothing. -/
inductive IsLead : List Char → Prop where
  | none : IsLead []
  | await
      {gap : List Char}
      (isGap : IsGap gap) :
      IsLead ("await".toList ++ gap)

/-- Whether the call of a delay, awaited or not, begins where a text begins. -/
def CallsDelay
    (before : Option Char)
    (text : List Char) :
    Prop :=
  isWordAt Text.isWordChar before = false ∧
    ∃ lead, IsLead lead ∧ ∃ (call : DelayCall) (behind : List Char),
      text = lead ++ call.text ++ behind

section Matching

variable {turns : Nat} {start : Progress} {before : Option Char} {rest lead passed : List Char}
  {offset : Nat} {call : DelayCall} {taken : List (Nat × List Char)}

/-- The keyword with white space behind it. -/
def awaitPattern : Pattern := .group 1 (all [.wordEdge, literal "await", spaces1])

/-- The part of the pattern behind the keyword. -/
def callPattern : Pattern :=
  all [.wordEdge, .group 2 (words ["delayMicroseconds", "delay"]), spaces, mark '(']

theorem awaitDelays_pattern :
    awaitDelays.pattern = .seq (Pattern.optional awaitPattern) callPattern :=
  rfl

namespace DelayCall

theorem begins
    (call : DelayCall)
    (behind : List Char) :
    ∃ others, call.text ++ behind = 'd' :: others := by
  obtain ⟨name, blanks, isDelay, areBlank⟩ := call
  simp only [List.mem_cons, List.not_mem_nil, or_false] at isDelay
  rcases isDelay with rfl | rfl <;> simp [text]

theorem beginsWord
    (call : DelayCall)
    (behind : List Char) :
    BeginsWord (call.text ++ behind) := by
  obtain ⟨others, isText⟩ := call.begins behind
  rw [isText]
  exact ⟨'d', rfl, rfl⟩

/-- The longer name of a delay is preferred, and is no beginning of a call of the other one. -/
theorem prefers_name (isText : start.cursor.rest = call.text ++ rest) :
    Prefers turns (words ["delayMicroseconds", "delay"]) start
      (start.skip call.name.toList.length) := by
  obtain ⟨name, blanks, isDelay, areBlank⟩ := call
  simp only [text, List.append_assoc] at isText
  have split : words ["delayMicroseconds", "delay"] =
      .either (literal "delayMicroseconds") (literal "delay") :=
    rfl
  rw [split]
  simp only [List.mem_cons, List.not_mem_nil, or_false] at isDelay
  rcases isDelay with rfl | rfl
  · exact .left (.literal isText)
  · refine .right (.of_takes fun passed taken behind takes whole => ?_) (.literal isText)
    rw [takes_literal takes, isText] at whole
    -- The rest of the longer name would begin with a letter behind the shorter one.
    have dropped := congrArg (List.drop 5) whole
    cases blanks with
    | nil => simp at dropped
    | cons c blanks =>
        obtain ⟨isLetter, -⟩ : c = 'M' ∧ _ := by simpa using dropped
        have isBlank := areBlank c List.mem_cons_self
        rw [isLetter] at isBlank
        contradiction

/-- The call is taken as a whole, and its name is remembered. -/
theorem prefers
    (isText : start.cursor.rest = call.text ++ rest)
    (outside : isWordAt Text.isWordChar start.cursor.before = false)
    (enough : call.blanks.length ≤ turns) :
    ∃ group : Group, group.number = 2 ∧ group.text = call.name.toList ∧
      Prefers turns callPattern start
        ⟨start.cursor.skip call.text.length, group :: start.groups⟩ := by
  have whole : start.cursor.rest = call.name.toList ++ (call.blanks ++ ('(' :: rest)) := by
    simpa [text] using isText
  let named := remember 2 start (start.skip call.name.toList.length)
  have atBlanks : named.cursor.rest = call.blanks ++ '(' :: rest := Progress.rest_skip whole
  have edge : Prefers turns .wordEdge start start :=
    .wordEdge (atWordEdge_of_beginsWord outside (isText ▸ call.beginsWord rest))
  have ofName : Prefers turns (.group 2 (words ["delayMicroseconds", "delay"])) start named :=
    (prefers_name isText).group 2
  have ofBlanks : Prefers turns spaces named (named.skip call.blanks.length) :=
    .zeroOrMore_char atBlanks call.areBlank (by rintro c ⟨⟩; rfl) enough
  have ofMark : Prefers turns (mark '(') _ _ := .char (Progress.rest_skip atBlanks) rfl
  have last : (named.skip call.blanks.length).skip 1 =
      ⟨start.cursor.skip call.text.length, named.groups⟩ := by
    have lengths : call.text.length = call.name.toList.length + (call.blanks.length + 1) := by
      simp [text]
    rw [Progress.skip_skip, lengths, Cursor.skip_add]
    rfl
  rw [last] at ofMark
  have isName : Group.text ⟨2, start.cursor, named.cursor⟩ = call.name.toList :=
    (Cursor.passes_skip whole).textTo_eq
  exact ⟨_, rfl, isName, edge.seq (ofName.seq (ofBlanks.seq ofMark))⟩

end DelayCall

theorem IsLead.beginsWord
    (isLead : IsLead lead)
    (call : DelayCall)
    (behind : List Char) :
    BeginsWord (lead ++ call.text ++ behind) := by
  cases isLead with
  | none => exact call.beginsWord behind
  | await isGap => exact ⟨'a', rfl, rfl⟩

/-- A keyword is taken with the white space behind it. -/
theorem prefers_await
    {gap : List Char}
    (isGap : IsGap gap)
    (isText : start.cursor.rest = "await".toList ++ (gap ++ rest))
    (outside : isWordAt Text.isWordChar start.cursor.before = false)
    (begins : BeginsWord rest)
    (enough : gap.length ≤ turns) :
    Prefers turns awaitPattern start
      (remember 1 start (start.skip ("await".toList ++ gap).length)) := by
  have edge : Prefers turns .wordEdge start start :=
    .wordEdge (atWordEdge_of_beginsWord outside (isText ▸ ⟨'a', rfl, rfl⟩))
  have ofGap : Prefers turns spaces1 _ _ :=
    isGap.prefers (Progress.rest_skip isText) begins enough
  rw [Progress.skip_skip, ← List.length_append] at ofGap
  exact (edge.seq ((Prefers.literal isText).seq ofGap)).group 1

/-- The rule finds a call where it begins, and knows whether it is awaited. -/
theorem matchAt?_call
    (isLead : IsLead lead)
    (outside : isWordAt Text.isWordChar before = false)
    (enough : (lead ++ call.text).length ≤ turns) :
    ∃ found,
      awaitDelays.pattern.matchAt? turns ⟨before, lead ++ call.text ++ rest, offset⟩ =
          some found ∧
        found.last.rest = rest ∧ found.last.before = some '(' ∧
          ((found.group? 1).isSome ↔ lead ≠ []) ∧ found.group 2 = call.name.toList := by
  generalize isStart : (⟨⟨before, lead ++ call.text ++ rest, offset⟩, []⟩ : Progress) = start
  have atLead : start.cursor.rest = (lead ++ call.text) ++ rest := by rw [← isStart]
  have outsideStart : isWordAt Text.isWordChar start.cursor.before = false := by rwa [← isStart]
  have behind := Cursor.rest_skip atLead
  have isLast : (start.cursor.skip (lead ++ call.text).length).before = some '(' := by
    have parenthesis : start.cursor.rest =
        (lead ++ (call.name.toList ++ call.blanks)) ++ '(' :: rest := by
      simpa [DelayCall.text] using atLead
    have lengths : (lead ++ call.text).length =
        (lead ++ (call.name.toList ++ call.blanks)).length + 1 := by
      simp [DelayCall.text, Nat.add_assoc]
    rw [lengths]
    exact Cursor.before_skip parenthesis
  have shorter : (start.cursor.skip (lead ++ call.text).length).rest.length <
      start.cursor.rest.length := by
    rw [behind, atLead]
    simp only [DelayCall.text, List.length_append, List.length_singleton]
    omega
  have enoughBlanks : call.blanks.length ≤ turns := by
    simp only [DelayCall.text, List.length_append] at enough
    omega
  have matched {groups : List Group}
      (prefers :
        Prefers turns awaitDelays.pattern start
          ⟨start.cursor.skip (lead ++ call.text).length, groups⟩) :
      awaitDelays.pattern.matchAt? turns ⟨before, lead ++ call.text ++ rest, offset⟩ =
        some ⟨start.cursor, start.cursor.skip (lead ++ call.text).length, groups⟩ := by
    have goes := prefers.finds some _ rfl
    subst isStart
    exact matchAt?_eq_some goes shorter
  have noGroups : start.groups = [] := by rw [← isStart]
  rw [awaitDelays_pattern] at matched
  cases isLead with
  | none =>
      rw [List.nil_append] at atLead
      obtain ⟨group, isTwo, isName, ofCall⟩ := DelayCall.prefers atLead outsideStart enoughBlanks
      have noAwait : Fails turns awaitPattern start := by
        obtain ⟨others, isText⟩ := call.begins rest
        refine .of_mayStart rfl fun c isHead => ?_
        rw [atLead, isText] at isHead
        cases isHead
        rfl
      refine ⟨_, matched ((Prefers.absent noAwait).seq ofCall), behind, isLast, ?_, ?_⟩
      · simp [Match.group?, isTwo, noGroups]
      · rw [Match.group_cons, if_pos isTwo, isName]
  | @await gap isGap =>
      have atAwait : start.cursor.rest = "await".toList ++ (gap ++ (call.text ++ rest)) := by
        simpa using atLead
      have split : start.cursor.rest = ("await".toList ++ gap) ++ (call.text ++ rest) := by
        simpa using atLead
      have atCall := Progress.rest_skip split
      have outsideCall : isWordAt Text.isWordChar
          (start.cursor.skip ("await".toList ++ gap).length).before = false := by
        obtain ⟨front, c, rfl⟩ := List.eq_nil_or_concat' gap |>.resolve_left isGap.notEmpty
        have isBlank := isGap.blank c (by simp)
        have place : start.cursor.rest =
            ("await".toList ++ front) ++ c :: (call.text ++ rest) := by
          simpa using atLead
        have isBefore := Cursor.before_skip place
        rw [← List.append_assoc, List.length_append, List.length_singleton, isBefore]
        exact Text.not_isWordChar_of_isBlank isBlank
      have enoughGap : gap.length ≤ turns := by
        simp only [List.length_append] at enough
        omega
      have ofAwait :=
        prefers_await isGap atAwait outsideStart (call.beginsWord rest) enoughGap
      obtain ⟨group, isTwo, isName, ofCall⟩ :=
        @DelayCall.prefers turns (remember 1 start (start.skip ("await".toList ++ gap).length))
          rest call atCall outsideCall enoughBlanks
      have last : (remember 1 start (start.skip ("await".toList ++ gap).length)).cursor.skip
          call.text.length = start.cursor.skip ("await".toList ++ gap ++ call.text).length := by
        have lengths : ("await".toList ++ gap ++ call.text).length =
            ("await".toList ++ gap).length + call.text.length :=
          List.length_append
        rw [lengths, Cursor.skip_add]
        rfl
      rw [last] at ofCall
      refine ⟨_, matched ((Prefers.left ofAwait).seq ofCall), behind, isLast, ?_, ?_⟩
      · simp [Match.group?, isTwo, remember]
      · rw [Match.group_cons, if_pos isTwo, isName]

/-- What the pattern takes begins with the call of a delay. -/
theorem exists_call_of_takes (takes : Takes awaitDelays.pattern passed taken) :
    ∃ lead, IsLead lead ∧ ∃ call : DelayCall, passed = lead ++ call.text := by
  obtain ⟨lead, _, _, _, takesLead, takesDelay, rfl, -⟩ := takes_all_cons takes
  obtain ⟨_, _, _, _, ⟨rfl, -⟩, takesCall, rfl, -⟩ := takes_all_cons takesDelay
  obtain ⟨called, opening, _, _, ⟨_, takesName, -⟩, takesOpening, rfl, -⟩ :=
    takes_all_cons takesCall
  obtain ⟨blanks, _, _, _, takesBlanks, ⟨-, c, isMark, rfl⟩, rfl, -⟩ :=
    takes_all_cons takesOpening
  obtain rfl : c = '(' := of_decide_eq_true isMark
  obtain ⟨name, isDelay, rfl⟩ := takes_words (List.cons_ne_nil _ _) takesName
  have isLead : IsLead lead := by
    rcases takesLead with ⟨_, takesAwait, -⟩ | ⟨rfl, -⟩
    · obtain ⟨_, _, _, _, ⟨rfl, -⟩, takesAwait, rfl, -⟩ := takes_all_cons takesAwait
      obtain ⟨_, gap, _, _, takesLiteral, takesGap, rfl, -⟩ := takes_all_cons takesAwait
      rw [takes_literal takesLiteral]
      exact .await (.of_takes takesGap)
    · exact .none
  exact ⟨lead, isLead, ⟨name, blanks, isDelay, fun c => takesBlanks.mayTake⟩, rfl⟩

/-- The rule finds nothing but calls of delays. -/
theorem callsDelay_of_matchAt?
    {found : Match}
    (matched : awaitDelays.pattern.matchAt? turns ⟨before, rest, offset⟩ = some found) :
    CallsDelay before rest := by
  obtain ⟨isFirst, took, -⟩ := took_of_matchAt? matched
  obtain ⟨lead, isLead, call, isText⟩ := exists_call_of_takes took.takes
  have whole : rest = lead ++ call.text ++ found.last.rest := by
    have split := took.passes.rest
    rwa [isText] at split
  refine ⟨?_, lead, isLead, call, found.last.rest, whole⟩
  by_contra inside
  -- No edge is between two characters of words, so nothing would have been found.
  have noEdge : atWordEdge Text.isWordChar ⟨before, rest, offset⟩ = false := by
    obtain ⟨c, isHead, isName⟩ := isLead.beginsWord call found.last.rest
    rw [← whole] at isHead
    rw [Bool.not_eq_false] at inside
    rw [atWordEdge, inside, Option.mem_def.mp isHead, isWordAt,
      Text.isWordChar_of_isNameChar isName]
    rfl
  rw [isEdged_awaitDelays turns _ noEdge] at matched
  contradiction

end Matching

end LedSketch.Sketch
