import LedSketch.Proofs.Script.Rendering
import LedSketch.Script.Parser

namespace LedSketch.Script

/-!
# Running parsers

What the primitives of the parser do with the tokens at hand, one after the other.
-/

namespace Parser

variable {α β : Type} {tokens between rest : List Token} {token : Token} {mark : Punct}

/-- The kind that decides what is parsed next is that of the first token. -/
@[simp]
theorem kindOf_cons (token : Token) (tokens : List Token) :
    kindOf (token :: tokens) = token.kind :=
  rfl

/-- Two parsers one after the other, where the first one is known to succeed. -/
theorem run_bind
    {parser : Parser α}
    {next : α → Parser β}
    {result : α}
    {outcome : Except ParseError (β × List Token)}
    (first : parser.run tokens = .ok (result, between))
    (later : (next result).run between = outcome) :
    (parser >>= next).run tokens = outcome := by
  simp only [StateT.run_bind, first]
  exact later

/-- A parser made of two succeeds only if both do, the second on what the first left. -/
theorem run_bind_eq_ok
    {parser : Parser α}
    {next : α → Parser β}
    {value : β}
    (ran : (parser >>= next).run tokens = .ok (value, rest)) :
    ∃ result between,
      parser.run tokens = .ok (result, between) ∧
        (next result).run between = .ok (value, rest) := by
  rw [StateT.run_bind] at ran
  cases first : parser.run tokens with
  | error error =>
      rw [first] at ran
      contradiction
  | ok outcome =>
      rw [first] at ran
      exact ⟨outcome.1, outcome.2, rfl, ran⟩

/-- Only the end of the input is not skipped. -/
theorem run_skip
    {kind : TokenKind}
    (isKind : token.kind = kind)
    (notEnd : kind.isEnd = false) :
    skip.run (token :: rest) = .ok ((), rest) := by
  cases kind with
  | endOfInput => contradiction
  | _ => simp [skip, afterNext, isKind]; rfl

/-- A mark that is next is taken. -/
theorem run_takes_next (isMark : token.kind = .punct mark) :
    (takes mark).run (token :: rest) = .ok (true, rest) := by
  refine run_bind rfl ?_
  simp only [kindOf, isMark, TokenKind.isPunct, decide_true, if_true]
  exact run_bind (run_skip isMark rfl) rfl

/-- Where a mark is not next, nothing is taken. -/
theorem run_takes_other (other : (kindOf tokens).isPunct mark = false) :
    (takes mark).run tokens = .ok (false, tokens) := by
  refine run_bind rfl ?_
  simp only [other]
  rfl

/-- A reserved word that is next is taken. -/
theorem run_takesKeyword_next
    {word : Keyword}
    (isWord : token.kind = .keyword word) :
    (takesKeyword word).run (token :: rest) = .ok (true, rest) := by
  refine run_bind rfl ?_
  simp only [kindOf, isWord, TokenKind.isKeyword, decide_true, if_true]
  exact run_bind (run_skip isWord rfl) rfl

/-- Where a reserved word is not next, nothing is taken. -/
theorem run_takesKeyword_other
    {word : Keyword}
    (other : (kindOf tokens).isKeyword word = false) :
    (takesKeyword word).run tokens = .ok (false, tokens) := by
  refine run_bind rfl ?_
  simp only [other]
  rfl

/-- A reserved word is taken whenever it is next. -/
theorem run_takesKeyword_of_isKeyword
    {word : Keyword}
    (isNext : (kindOf tokens).isKeyword word = true) :
    ∃ onward, (takesKeyword word).run tokens = .ok (true, onward) := by
  cases tokens with
  | nil => contradiction
  | cons token onward =>
      refine ⟨onward, run_takesKeyword_next ?_⟩
      cases isKind : token.kind with
      | keyword found => simpa [isKind, TokenKind.isKeyword] using isNext
      | _ => simp [isKind, TokenKind.isKeyword] at isNext

/-- A mark that has to be there, and is, raises no error, whatever the error would say. -/
theorem run_expect
    (isMark : token.kind = .punct mark)
    (what : String) :
    (expect mark what).run (token :: rest) = .ok ((), rest) :=
  run_bind (run_takes_next isMark) rfl

/-- A name that has to be there, and is, is read with its text. -/
theorem run_name
    {word : String}
    (isName : token.kind = .name word)
    (what : String) :
    (name what).run (token :: rest) = .ok (word, rest) := by
  refine run_bind rfl ?_
  simp only [kindOf, isName]
  exact run_bind (run_skip isName rfl) rfl

/-- Items are read off their tokens if the last one is, and each one in front of a comma. -/
theorem run_commaSeparated
    (parser : Nat → Parser (List α))
    {spell : α → List TokenKind}
    {place : α → α}
    {line : Nat}
    {items : List α}
    (last :
      ∀ item ∈ items, ∀ depth,
        32 * (spell item).length ≤ depth →
        (parser (depth + 1)).run (spelledOn line (spell item) ++ between) =
          .ok ([place item], rest))
    (more :
      ∀ item ∈ items, ∀ depth onward others,
        32 * (spell item).length ≤ depth →
        (parser depth).run onward = .ok (others, rest) →
        (parser (depth + 1)).run
            (spelledOn line (spell item) ++ ⟨.punct .comma, line, [], []⟩ :: onward) =
          .ok (place item :: others, rest))
    (nonempty : items ≠ [])
    (depth : Nat)
    (enough : 32 * (commaSeparated (items.map spell)).length < depth) :
    (parser depth).run (spelledOn line (commaSeparated (items.map spell)) ++ between) =
      .ok (items.map place, rest) := by
  induction items generalizing depth with
  | nil => contradiction
  | cons item items inductionHypothesis =>
      obtain ⟨below, rfl⟩ : ∃ below, depth = below + 1 := ⟨depth - 1, by omega⟩
      cases items with
      | nil =>
          simp only [List.map_cons, List.map_nil, commaSeparated_singleton] at enough ⊢
          exact last item List.mem_cons_self below (Nat.le_of_lt_succ enough)
      | cons next items =>
          have size :
              (commaSeparated ((item :: next :: items).map spell)).length =
                (spell item).length +
                  ((commaSeparated ((next :: items).map spell)).length + 1) := by
            simp
          have onward := inductionHypothesis
            (fun other member => last other (List.mem_cons_of_mem _ member))
            (fun other member => more other (List.mem_cons_of_mem _ member))
            (List.cons_ne_nil next items) below (by omega)
          simp only [List.map_cons, commaSeparated_cons_cons, spelledOn_append,
            spelledOn_cons, List.append_assoc, List.cons_append]
          exact more item List.mem_cons_self below _ _ (by omega) onward

end Parser

end LedSketch.Script
