import LedSketch.Proofs.Sketch.Literals
import LedSketch.Sketch.Argument
import Mathlib.Data.List.Infix

namespace LedSketch.Sketch

/-!
# Text outside of comments

Between two places outside of literals and comments a text is made of literals and of
characters that open nothing.  Such a text can be cut wherever no literal is cut.
-/

open Script.Lexeme

/-- The characters that begin and end literals. -/
def quotes : List Char := ['"', '\'']

/-- Whether a character does not begin or end a literal. -/
def isUnquoted (c : Char) : Bool := c ≠ '"' && c ≠ '\''

/-- Whether a character opens neither a literal nor a comment. -/
def isPlain (c : Char) : Bool := isUnquoted c && c ≠ '/'

/-- Whether no comment is opened by a slash in front of a character. -/
def opensNothing (following : Option Char) : Prop :=
  ∀ c ∈ following, c ≠ '/' ∧ c ≠ '*'

/-- Text outside of comments with its literals, in front of a character if one follows. -/
inductive CodeText (following : Option Char) : List Char → List (List Char) → Prop where
  | finish : CodeText following [] []
  | plain
      {c : Char}
      {rest : List Char}
      {literals : List (List Char)}
      (unquoted : isUnquoted c = true)
      (noComment : opensComment c (rest ++ following.toList) = false)
      (onward : CodeText following rest literals) :
      CodeText following (c :: rest) literals
  | literal
      {quote : Char}
      {inner content rest : List Char}
      {literals : List (List Char)}
      (isQuote : quote = '"' ∨ quote = '\'')
      (inside : Inside quote inner content)
      (onward : CodeText following rest literals) :
      CodeText following (quote :: (inner ++ quote :: rest))
        ((quote :: (inner ++ [quote])) :: literals)

theorem isUnquoted_iff {c : Char} : isUnquoted c = true ↔ c ≠ '"' ∧ c ≠ '\'' := by
  simp [isUnquoted]

theorem isUnquoted_iff_notMem {c : Char} : isUnquoted c = true ↔ c ∉ quotes := by
  simp [isUnquoted, quotes]

theorem isUnquoted_of_isPlain
    {c : Char}
    (plain : isPlain c = true) :
    isUnquoted c = true :=
  (Bool.and_eq_true_iff.mp plain).1

theorem isPlain_of_all
    {text : List Char}
    (plain : text.all isPlain = true) :
    ∀ c ∈ text, isPlain c = true :=
  List.all_eq_true.mp plain

theorem opensComment_of_isPlain
    {c : Char}
    (plain : isPlain c = true)
    (more : List Char) :
    opensComment c more = false := by
  have notSlash : c ≠ '/' := by simpa using (Bool.and_eq_true_iff.mp plain).2
  simp [opensComment, notSlash]

theorem opensComment_congr
    {c : Char}
    {first second : List Char}
    (same : first.head? = second.head?) :
    opensComment c first = opensComment c second := by
  rw [opensComment, opensComment, same]

theorem head?_append_toList
    (text : List Char)
    (following : Option Char) :
    (text ++ following.toList).head? = text.head?.or following := by
  cases following <;> simp

/-- Of a text that follows, only the first character counts. -/
theorem opensComment_append
    (c : Char)
    (first second : List Char)
    (following : Option Char) :
    opensComment c (first ++ second ++ following.toList) =
      opensComment c (first ++ (second.head?.or following).toList) := by
  apply opensComment_congr
  rw [head?_append_toList, head?_append_toList, List.head?_append, Option.or_assoc]

/-- In code a character that opens nothing adds nothing to what is read. -/
theorem Reading.read_plain
    {c : Char}
    {rest : List Char}
    (notQuote : c ≠ '"' ∧ c ≠ '\'')
    (noComment : opensComment c rest = false)
    (earlier : List (List Char)) :
    (Reading.code earlier).read c rest.head? = some (Reading.code earlier) := by
  obtain ⟨deeper, isCode⟩ := (@Lexical.Ready.code 0 _).readMany_one notQuote noComment
  have state : (Lexical.code 0).read c rest.head? = Lexical.code deeper := isCode
  simp only [Reading.read, Reading.code, state]
  rfl

/-- Where a character of code is followed by no comment, it opens none. -/
theorem opensComment_of_inComment
    {depth : Int}
    {c : Char}
    {rest : List Char}
    (outside : ((Lexical.code depth).read c rest.head?).inComment = false) :
    opensComment c rest = false := by
  by_contra comment
  simp only [opensComment, Bool.not_eq_false, Bool.and_eq_true, Bool.or_eq_true,
    decide_eq_true_eq] at comment
  obtain ⟨rfl, mark | mark⟩ := comment <;>
    simp [Lexical.read, Lexical.readCode, Lexical.code, mark, Lexical.inComment] at outside

namespace CodeText

variable {following other : Option Char} {text first second : List Char}
  {literals others : List (List Char)}

/-- What is read of such a text are its literals. -/
theorem readAll
    (code : CodeText following text literals)
    (earlier : List (List Char)) :
    (Reading.code earlier).readAll text following =
      some (Reading.code (earlier ++ literals)) := by
  induction code generalizing earlier with
  | finish => simp [Reading.readAll]
  | @plain c rest literals unquoted noComment onward inductionHypothesis =>
      rw [Reading.readAll, ← head?_append_toList,
        Reading.read_plain (isUnquoted_iff.mp unquoted) noComment, Option.bind_some,
        inductionHypothesis]
  | @literal quote inner content rest literals isQuote inside onward inductionHypothesis =>
      have whole : quote :: (inner ++ quote :: rest) = quote :: (inner ++ [quote]) ++ rest := by
        simp
      rw [whole, Reading.readAll_append, Reading.readAll_quoted isQuote inside, Option.bind_some,
        inductionHypothesis, List.append_assoc, List.singleton_append]

/-- What is read outside of comments, up to a place outside of literals, is such a text. -/
theorem of_readAll
    {rest : List Char}
    {depth : Int}
    {earlier : List (List Char)}
    {last : Reading}
    (read : (Reading.code earlier).readAll text rest.head? = some last)
    (ends : last.state.inLiteral = false)
    (outside :
      ∀ count ≤ text.length,
        ((Lexical.code depth).readMany count (text ++ rest)).inComment = false) :
    ∃ literals,
      CodeText rest.head? text literals ∧ last = Reading.code (earlier ++ literals) := by
  induction size : text.length using Nat.strong_induction_on generalizing text depth earlier with
  | _ size inductionHypothesis =>
      subst size
      rcases text with _ | ⟨c, text⟩
      · cases read
        exact ⟨[], .finish, by simp⟩
      rw [Reading.readAll, Option.bind_eq_some_iff] at read
      obtain ⟨next, isNext, onward⟩ := read
      by_cases isQuote : c = '"' ∨ c = '\''
      · rw [Reading.read_quote isQuote] at isNext
        cases isNext
        obtain ⟨inner, content, behind, inside, rfl, readBehind⟩ :=
          Reading.inside_of_readAll onward ends
        have isCode := (Lexical.readMany_quoted isQuote inside depth (behind ++ rest)).1
        have whole : c :: (inner ++ [c] ++ (behind ++ rest)) =
            c :: (inner ++ c :: behind) ++ rest := by simp
        rw [whole] at isCode
        have dropped : (c :: (inner ++ c :: behind) ++ rest).drop (inner.length + 2) =
            behind ++ rest := by
          simp
        obtain ⟨literals, code, same⟩ :=
          inductionHypothesis behind.length (by simp; omega) readBehind
            (fun count within => by
              have here := outside (inner.length + 2 + count) (by simp; omega)
              rwa [Lexical.readMany_add, isCode, dropped] at here)
            rfl
        exact ⟨_, .literal isQuote inside code, by simpa using same⟩
      · have notQuote : c ≠ '"' ∧ c ≠ '\'' := not_or.mp isQuote
        have noComment : opensComment c (text ++ rest) = false :=
          opensComment_of_inComment (outside 1 (by simp))
        obtain ⟨deeper, isCode⟩ :=
          (@Lexical.Ready.code depth _).readMany_one notQuote noComment
        rw [← List.head?_append, Reading.read_plain notQuote noComment] at isNext
        cases isNext
        obtain ⟨literals, code, same⟩ :=
          inductionHypothesis text.length (by simp) onward
            (fun count within => by
              have here := outside (1 + count) (by simp; omega)
              rwa [Lexical.readMany_add, List.cons_append, isCode] at here)
            rfl
        refine ⟨literals, .plain (isUnquoted_iff.mpr notQuote) ?_ code, same⟩
        rw [← noComment]
        apply opensComment_congr
        rw [head?_append_toList, List.head?_append]

theorem append
    (front : CodeText (second.head?.or following) first literals)
    (back : CodeText following second others) :
    CodeText following (first ++ second) (literals ++ others) := by
  induction front with
  | finish => exact back
  | plain unquoted noComment onward inductionHypothesis =>
      exact .plain unquoted ((opensComment_append ..).trans noComment) inductionHypothesis
  | literal isQuote inside onward inductionHypothesis =>
      simpa using CodeText.literal isQuote inside inductionHypothesis

/-- The text is the same in front of another character that goes on with no slash. -/
theorem follow
    (code : CodeText following text literals)
    (nothing : opensNothing other) :
    CodeText other text literals := by
  induction code with
  | finish => exact .finish
  | @plain c rest literals unquoted noComment onward inductionHypothesis =>
      refine .plain unquoted ?_ inductionHypothesis
      cases rest with
      | nil =>
          cases other with
          | none => simp [opensComment]
          | some next =>
              obtain ⟨notSlash, notStar⟩ := nothing next rfl
              simp [opensComment, notSlash, notStar]
      | cons next rest => exact noComment
  | literal isQuote inside onward inductionHypothesis =>
      exact .literal isQuote inside inductionHypothesis

/-- Such a text has its literals also without the text around it. -/
theorem literals_eq (code : CodeText following text literals) :
    Sketch.literals text = some literals := by
  have alone : CodeText none text literals := code.follow fun c none => by contradiction
  have read : (Reading.code []).readAll text none = some (Reading.code literals) := alone.readAll []
  rw [Sketch.literals, read]
  rfl

/-- Characters that open nothing have no literals. -/
theorem of_isPlain (plain : ∀ c ∈ text, isPlain c = true) : CodeText following text [] := by
  induction text with
  | nil => exact .finish
  | cons c text inductionHypothesis =>
      obtain ⟨isPlain, others⟩ := List.forall_mem_cons.mp plain
      exact .plain (isUnquoted_of_isPlain isPlain) (opensComment_of_isPlain isPlain _)
        (inductionHypothesis others)

/-- Every literal begins and ends with a quote. -/
theorem quotes_of_mem
    (code : CodeText following text literals)
    {spelled : List Char}
    (member : spelled ∈ literals) :
    ∃ quote inner, quote ∈ quotes ∧ spelled = quote :: (inner ++ [quote]) := by
  induction code with
  | finish => contradiction
  | plain unquoted noComment onward inductionHypothesis => exact inductionHypothesis member
  | @literal quote inner content rest literals isQuote inside onward inductionHypothesis =>
      rcases List.mem_cons.mp member with rfl | later
      · exact ⟨quote, inner, by simpa [quotes] using isQuote, rfl⟩
      · exact inductionHypothesis later

/-- A text without quotes has no literals. -/
theorem literals_eq_nil
    (code : CodeText following text literals)
    (unquoted : ∀ c ∈ text, isUnquoted c = true) :
    literals = [] := by
  induction code with
  | finish => rfl
  | plain _ _ onward inductionHypothesis =>
      exact inductionHypothesis fun c member => unquoted c (List.mem_cons_of_mem _ member)
  | @literal quote inner content rest literals isQuote inside onward inductionHypothesis =>
      have notQuote := isUnquoted_iff.mp (unquoted quote List.mem_cons_self)
      exact absurd isQuote (not_or.mpr notQuote)

/-- A text is cut in two such texts, or through a literal. -/
theorem split
    (code : CodeText following (first ++ second) literals) :
    (∃ front back,
        literals = front ++ back ∧ CodeText (second.head?.or following) first front ∧
          CodeText following second back) ∨
      ∃ left right,
        left ≠ [] ∧ right ≠ [] ∧ left ++ right ∈ literals ∧ left <:+ first ∧
          right <+: second := by
  generalize same : first ++ second = text at code
  induction code generalizing first with
  | finish =>
      obtain ⟨rfl, rfl⟩ := List.append_eq_nil_iff.mp same
      exact .inl ⟨[], [], rfl, .finish, .finish⟩
  | @plain c rest literals unquoted noComment onward inductionHypothesis =>
      rcases first with _ | ⟨head, first⟩
      · obtain rfl : second = c :: rest := same
        exact .inl ⟨[], literals, rfl, .finish, .plain unquoted noComment onward⟩
      obtain ⟨rfl, rfl⟩ := List.cons_eq_cons.mp same
      rcases inductionHypothesis rfl with ⟨front, back, rfl, codeFront, codeBack⟩ | cut
      · exact .inl ⟨front, back, rfl,
          .plain unquoted ((opensComment_append ..).symm.trans noComment) codeFront, codeBack⟩
      · obtain ⟨left, right, leftText, rightText, member, isSuffix, isPrefix⟩ := cut
        exact .inr ⟨left, right, leftText, rightText, member,
          isSuffix.trans (List.suffix_cons _ _), isPrefix⟩
  | @literal quote inner content rest literals isQuote inside onward inductionHypothesis =>
      rcases first with _ | ⟨head, first⟩
      · obtain rfl : second = quote :: (inner ++ quote :: rest) := same
        exact .inl ⟨[], _, rfl, .finish, .literal isQuote inside onward⟩
      have whole : (head :: first) ++ second = (quote :: (inner ++ [quote])) ++ rest := by
        rw [same]
        simp
      rcases List.append_eq_append_iff.mp whole with
          ⟨right, isLiteral, isSecond⟩ | ⟨onwardFirst, isFirst, isRest⟩
      · rcases right with _ | ⟨c, right⟩
        · obtain rfl : second = rest := isSecond
          rw [List.append_nil] at isLiteral
          rw [← isLiteral]
          exact .inl ⟨[_], literals, rfl, by simpa using CodeText.literal isQuote inside .finish,
            onward⟩
        · refine .inr ⟨head :: first, c :: right, by simp, by simp, ?_, List.suffix_rfl,
            isSecond ▸ List.prefix_append _ _⟩
          rw [← isLiteral]
          exact List.mem_cons_self
      · rw [isFirst]
        rcases inductionHypothesis isRest.symm with ⟨front, back, rfl, codeFront, codeBack⟩ | cut
        · exact .inl ⟨_ :: front, back, rfl,
            by simpa using CodeText.literal isQuote inside codeFront,
            codeBack⟩
        · obtain ⟨left, right, leftText, rightText, member, isSuffix, isPrefix⟩ := cut
          exact .inr ⟨left, right, leftText, rightText, List.mem_cons_of_mem _ member,
            isSuffix.trans (List.suffix_append _ _), isPrefix⟩

/-- A text is cut behind a text without quotes. -/
theorem split_unquoted_left
    (code : CodeText following (first ++ second) literals)
    (unquoted : ∀ c ∈ first, isUnquoted c = true) :
    CodeText (second.head?.or following) first [] ∧ CodeText following second literals := by
  rcases code.split with ⟨front, back, rfl, codeFront, codeBack⟩ | cut
  · obtain rfl := codeFront.literals_eq_nil unquoted
    exact ⟨codeFront, codeBack⟩
  · obtain ⟨left, right, leftText, _, member, isSuffix, _⟩ := cut
    obtain ⟨quote, inner, isQuote, same⟩ := code.quotes_of_mem member
    obtain ⟨c, left, rfl⟩ := List.exists_cons_of_ne_nil leftText
    obtain ⟨rfl, _⟩ := List.cons_eq_cons.mp same
    have notQuote := unquoted c (isSuffix.subset List.mem_cons_self)
    exact absurd isQuote (isUnquoted_iff_notMem.mp notQuote)

/-- A text is cut in front of a text without quotes. -/
theorem split_unquoted_right
    (code : CodeText following (first ++ second) literals)
    (unquoted : ∀ c ∈ second, isUnquoted c = true) :
    CodeText (second.head?.or following) first literals ∧ CodeText following second [] := by
  rcases code.split with ⟨front, back, rfl, codeFront, codeBack⟩ | cut
  · obtain rfl := codeBack.literals_eq_nil unquoted
    rw [List.append_nil]
    exact ⟨codeFront, codeBack⟩
  · obtain ⟨left, right, _, rightText, member, _, isPrefix⟩ := cut
    obtain ⟨quote, inner, isQuote, same⟩ := code.quotes_of_mem member
    have isLast : (left ++ right).getLast? = some quote := by
      rw [same, ← List.cons_append, List.getLast?_concat]
    rw [List.getLast?_append_of_ne_nil _ rightText] at isLast
    have notQuote := unquoted quote (isPrefix.subset (List.mem_of_getLast? isLast))
    exact absurd isQuote (isUnquoted_iff_notMem.mp notQuote)

/-- A text is cut at a character that is not in a literal. -/
theorem split_at
    {c : Char}
    (code : CodeText following (first ++ c :: second) literals)
    (outside : ∀ spelled ∈ literals, c ∉ spelled)
    (plain : isPlain c = true) :
    ∃ front back,
      literals = front ++ back ∧ CodeText (some c) first front ∧
        CodeText following second back := by
  rcases code.split with ⟨front, back, rfl, codeFront, codeBack⟩ | cut
  · have unquoted : ∀ other ∈ [c], isUnquoted other = true := by
      simpa using isUnquoted_of_isPlain plain
    obtain ⟨_, codeSecond⟩ := @split_unquoted_left following [c] second back codeBack unquoted
    exact ⟨front, back, rfl, codeFront, codeSecond⟩
  · obtain ⟨left, right, _, rightText, member, _, isPrefix⟩ := cut
    obtain ⟨head, right, rfl⟩ := List.exists_cons_of_ne_nil rightText
    obtain ⟨rfl, _⟩ := List.cons_prefix_cons.mp isPrefix
    exact absurd (by simp) (outside _ member)

end CodeText

end LedSketch.Sketch
