import LedSketch.Proofs.Number.Numerals
import LedSketch.Proofs.Script.Lexemes

namespace LedSketch.Script

/-!
# Written scripts

Words that are written one after the other, with a blank and perhaps more to skip after
each of them, are read back as their tokens.
-/

open Lexeme

/-- A token as it is written. -/
inductive Word where
  | int
      (value : Nat)
      (inRange : value < Nat.pow 2 63)
  | text (content : String)
  | name
      (first : Char)
      (more : List Char)
      (isStart : Text.isNameStart first = true)
      (chars : ∀ c ∈ more, Text.isNameChar c = true)
      (free : Keyword.ofSpelling? (String.ofList (first :: more)) = none)
  | keyword (word : Keyword)
  | mark
      (spelling : String)
      (mark : Punct)
      (known : (spelling, mark) ∈ Punct.spellings)

/-- A part of what stands between two words. -/
inductive Gap where
  | blank
      (c : Char)
      (isBlank : Text.isBlank c = true)
  | lineComment
      (body : List Char)
      (noLineEnd : '\n' ∉ body)
  | blockComment
      (body : List Char)
      (closed : ¬ ['*', '/'] <:+: body)

/-- What stands after a word. -/
structure Separator where
  first : Char
  isBlank : Text.isBlank first = true
  gaps : List Gap

/-- A character of a string as it is written. -/
def escape (c : Char) : List Char :=
  if c = '\\' then ['\\', '\\']
  else if c = '"' then ['\\', '"']
  else if c = '\n' then ['\\', 'n']
  else [c]

namespace Word

/-- How a word is spelled. -/
def spelled : Word → List Char
  | .int value _ => Nat.toDigits 10 value
  | .text content => '"' :: (content.toList.flatMap escape ++ ['"'])
  | .name first more _ _ _ => first :: more
  | .keyword word => word.spelling.toList
  | .mark spelling _ _ => spelling.toList

/-- What a word says. -/
def kind : Word → TokenKind
  | .int value _ => .int (Int64.ofNat value)
  | .text content => .text content
  | .name first more _ _ _ => .name (String.ofList (first :: more))
  | .keyword word => .keyword word
  | .mark _ punct _ => .punct punct

end Word

/-- How a part of a separator is spelled. -/
def Gap.spelled : Gap → List Char
  | .blank c _ => [c]
  | .lineComment body _ => '/' :: '/' :: (body ++ ['\n'])
  | .blockComment body _ => '/' :: '*' :: (body ++ ['*', '/'])

/-- How a separator is spelled. -/
def Separator.spelled (separator : Separator) : List Char :=
  separator.first :: separator.gaps.flatMap Gap.spelled

/-- The text of words with a separator after each. -/
def written (words : List (Word × Separator)) : List Char :=
  words.flatMap fun (word, separator) => word.spelled ++ separator.spelled

section Words

theorem valueIn_toDigits (value : Nat) : valueIn 10 (Nat.toDigits 10 value) = value :=
  (LedSketch.Radix.spells_toDigits value).value

/-- A number in decimal is read as its value. -/
theorem readNumber_toDigits
    {value : Nat}
    (inRange : value < Nat.pow 2 63) :
    readNumber (Nat.toDigits 10 value) = .ok (.int (Int64.ofNat value), []) := by
  have digits : ∀ c ∈ Nat.toDigits 10 value, c.isDigit = true := fun c member =>
    Nat.isDigit_of_mem_toDigits (by decide) (by decide) member
  have noBase : radix? (Nat.toDigits 10 value) = none := by
    by_contra announced
    obtain ⟨radix, isRadix⟩ := Option.ne_none_iff_exists'.mp announced
    obtain ⟨second, after, same, ⟨_, notDigit⟩, _⟩ := radix?_cases isRadix
    have isDigit := digits second (by rw [same]; simp)
    rw [notDigit] at isDigit
    contradiction
  have split : splitDecimal (Nat.toDigits 10 value) = ⟨Nat.toDigits 10 value, none, [], []⟩ := by
    simpa using @splitDecimal_noPoint _ [] [] digits .nil .nil rfl
  simp only [readNumber, noBase, readDecimal, split, valueIn_toDigits, inRange, Option.isNone_none,
    List.isEmpty_nil, Bool.and_self, if_true, List.dropWhile_nil]

theorem inside_escape (content : List Char) :
    Inside '"' (content.flatMap escape) content := by
  induction content with
  | nil => exact .nothing
  | cons c content inductionHypothesis =>
      rw [List.flatMap_cons]
      by_cases escaped : c = '\\'
      · subst escaped
        exact .escape inductionHypothesis
      by_cases quote : c = '"'
      · subst quote
        exact .escape inductionHypothesis
      by_cases lineEnd : c = '\n'
      · subst lineEnd
        exact .escape inductionHypothesis
      · simp only [escape, escaped, quote, lineEnd, if_false]
        exact .plain quote escaped lineEnd inductionHypothesis

/-- A mark stands at the start of its spelling, and no other token and no comment does. -/
theorem ofText?_spelling :
    ∀ entry ∈ Punct.spellings, ∀ first ∈ entry.1.toList.head?,
      Punct.ofText? entry.1.toList = some (entry.2, []) ∧
        Text.isBlank first = false ∧ opensComment first entry.1.toList.tail = false ∧
        startsNumber entry.1.toList = false ∧ first ≠ '"' ∧ first ≠ '\'' ∧
        Text.isNameStart first = false := by
  have all :
      (Punct.spellings.all fun entry => entry.1.toList.head?.all fun first =>
        Punct.ofText? entry.1.toList = some (entry.2, []) ∧
          Text.isBlank first = false ∧ opensComment first entry.1.toList.tail = false ∧
          startsNumber entry.1.toList = false ∧ first ≠ '"' ∧ first ≠ '\'' ∧
          Text.isNameStart first = false) = true := by
    decide +kernel
  simpa only [List.all_eq_true, Option.all_eq_true, Option.mem_def, decide_eq_true_eq]
    using all

/-- A character of a name opens neither a blank nor a comment. -/
theorem begins_of_isNameChar
    {first : Char}
    {more behind : List Char}
    {kind : TokenKind}
    (isName : Text.isNameChar first = true)
    (read : readToken first more = .ok (kind, behind)) :
    Begins first more kind behind where
  notBlank := by
    by_contra isBlank
    rw [Bool.not_eq_false] at isBlank
    rw [not_isNameChar_of_isBlank isBlank] at isName
    contradiction
  noComment := by
    have notSlash : first ≠ '/' := by
      rintro rfl
      contradiction
    simp [opensComment, notSlash]
  read := read

/-- A word that is all of a text is a keyword or a name. -/
theorem readWord_all
    {text : List Char}
    (chars : ∀ c ∈ text, Text.isNameChar c = true) :
    readWord text =
      match Keyword.ofSpelling? (String.ofList text) with
      | some keyword => (.keyword keyword, [])
      | none => (.name (String.ofList text), []) := by
  have taken : text.takeWhile Text.isNameChar = text := List.takeWhile_eq_self_iff.mpr chars
  have dropped : text.dropWhile Text.isNameChar = [] := List.dropWhile_eq_nil_iff.mpr chars
  cases found : Keyword.ofSpelling? (String.ofList text) <;>
    simp [readWord, taken, dropped, found]

theorem isNameStart_spelling (word : Keyword) :
    ∀ first ∈ word.spelling.toList.head?, Text.isNameStart first = true := by
  have all : word.spelling.toList.head?.all Text.isNameStart = true := by
    cases word <;> decide
  simpa only [Option.all_eq_true, Option.mem_def] using all

theorem isNameChar_spelling (word : Keyword) :
    ∀ c ∈ word.spelling.toList, Text.isNameChar c = true := by
  have all : word.spelling.toList.all Text.isNameChar = true := by
    cases word <;> decide
  simpa only [List.all_eq_true] using all

/-- A word alone is read to its end. -/
theorem Word.begins (word : Word) :
    ∃ first more, word.spelled = first :: more ∧ Begins first more word.kind [] := by
  cases word with
  | int value inRange =>
      obtain ⟨first, more, same⟩ :=
        List.exists_cons_of_ne_nil (Nat.toDigits_ne_nil (n := value) (b := 10))
      have isDigit : first.isDigit = true :=
        Nat.isDigit_of_mem_toDigits (by decide) (by decide) (same ▸ List.mem_cons_self)
      refine ⟨first, more, same, begins_of_isNameChar (Nominal.isDigit first isDigit) ?_⟩
      have read := readNumber_toDigits inRange
      rw [same] at read
      simp only [readToken, isDigit, Bool.true_or, if_true, read, kind]
  | text content =>
      refine ⟨'"', _, rfl, rfl, rfl, ?_⟩
      have inside : literal? '"' (content.toList.flatMap escape ++ ['"']) =
          some (content.toList, []) :=
        (literal?_eq_some_iff (by decide) (by decide)).mpr ⟨_, inside_escape _, rfl⟩
      simp [readToken, readString, inside, kind]
  | name first more isStart chars free =>
      have isName := Text.isNameChar_of_isNameStart isStart
      refine ⟨first, more, rfl, begins_of_isNameChar isName ?_⟩
      have all : ∀ c ∈ first :: more, Text.isNameChar c = true := by
        simpa [isName] using chars
      simp only [readToken_of_isNameStart isStart, readWord_all all, free, kind]
  | keyword word =>
      have all := isNameChar_spelling word
      have starts := isNameStart_spelling word
      have found := Keyword.ofSpelling?_spelling word
      rw [← String.ofList_toList (s := word.spelling)] at found
      obtain ⟨first, more, same⟩ : ∃ first more, word.spelling.toList = first :: more := by
        cases word <;> exact ⟨_, _, rfl⟩
      rw [same] at all starts found
      have isStart := starts first rfl
      refine ⟨first, more, same,
        begins_of_isNameChar (Text.isNameChar_of_isNameStart isStart) ?_⟩
      simp only [readToken_of_isNameStart isStart, readWord_all all, found, kind]
  | mark spelling mark known =>
      obtain ⟨first, more, same⟩ := List.exists_cons_of_ne_nil (spelling_ne_nil _ known)
      have begins := ofText?_spelling _ known first (by simp [same])
      simp only [same, List.tail_cons] at begins
      obtain ⟨read, notBlank, noComment, noNumber, notQuote, notMark, notStart⟩ := begins
      refine ⟨first, more, same, notBlank, noComment, ?_⟩
      rw [readToken_of_noNumber noNumber, if_neg notQuote, if_neg notMark,
        if_neg (by simp [notStart]), readPunct, read]
      rfl

end Words

/-- What stands between two words is skipped. -/
theorem Gap.reads
    (gap : Gap)
    {rest : List Char}
    {kinds : List TokenKind}
    (onward : Reads rest kinds) :
    Reads (gap.spelled ++ rest) kinds := by
  cases gap with
  | blank c isBlank => exact .skip (.blank isBlank) onward
  | lineComment body noLineEnd =>
      have ends : StopsAt (· ≠ '\n') ('\n' :: rest) := by
        intro c first
        cases first
        rfl
      have behind : Reads (['\n'] ++ rest) kinds := .skip (.blank (by decide)) onward
      simpa [Gap.spelled] using Reads.skip (.line noLineEnd ends) behind
  | blockComment body closed => exact .skip (.block closed) onward

theorem Separator.reads
    (separator : Separator)
    {rest : List Char}
    {kinds : List TokenKind}
    (onward : Reads rest kinds) :
    Reads (separator.spelled ++ rest) kinds := by
  obtain ⟨first, isBlank, gaps⟩ := separator
  suffices behind : Reads (gaps.flatMap Gap.spelled ++ rest) kinds by
    simpa [Separator.spelled] using Reads.skip (.blank isBlank) behind
  induction gaps with
  | nil => exact onward
  | cons gap gaps inductionHypothesis =>
      rw [List.flatMap_cons, List.append_assoc]
      exact gap.reads inductionHypothesis

/-- A word is read in front of everything that begins with a blank. -/
theorem Word.reads
    (word : Word)
    (separator : Separator)
    {rest : List Char}
    {kinds : List TokenKind}
    (onward : Reads (separator.spelled ++ rest) kinds) :
    Reads (word.spelled ++ (separator.spelled ++ rest)) (word.kind :: kinds) := by
  obtain ⟨first, more, same, alone⟩ := word.begins
  obtain ⟨spelled, rfl, _, stable⟩ := alone.follow
  obtain ⟨blank, isBlank, gaps⟩ := separator
  simp only [Separator.spelled, List.cons_append] at onward ⊢
  have noExponent : NoExponent (blank :: (gaps.flatMap Gap.spelled ++ rest)) := by
    apply noExponent_cons <;>
      · rintro rfl
        contradiction
  have follows : Follows [] (blank :: (gaps.flatMap Gap.spelled ++ rest)) :=
    .blank isBlank [] _
  rw [same, List.append_nil]
  exact .token (stable _ follows fun _ _ => noExponent) onward

/--
Words, each with a separator after it, are read back as what they say, in their order,
followed by the end of the input.
-/
theorem tokenize_written (words : List (Word × Separator)) :
    ∃ tokens,
      tokenize (written words) = .ok tokens ∧
        tokens.map Token.kind = words.map (fun word => word.1.kind) ++ [.endOfInput] := by
  apply Reads.tokenize
  induction words with
  | nil => exact .nil
  | cons first words inductionHypothesis =>
      obtain ⟨word, separator⟩ := first
      simp only [written, List.flatMap_cons, List.append_assoc]
      exact word.reads separator (separator.reads inductionHypothesis)

end LedSketch.Script
