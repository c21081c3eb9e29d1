import LedSketch.Pattern.Search

namespace LedSketch

/-!
# What a pattern takes

The text that a run passes and the texts that it remembers, part by part of the pattern.
This says nothing of preference and of edges, but of every character where it may stand.
-/

/-- The text passed on the way from a place to a later one. -/
structure Cursor.Passes
    (first last : Cursor)
    (passed : List Char) :
    Prop where
  rest : first.rest = passed ++ last.rest
  offset : last.offset = first.offset + passed.length

namespace Cursor.Passes

variable {first middle last : Cursor} {passed later : List Char}

/-- A cursor that stays passes nothing. -/
theorem refl (cursor : Cursor) : Passes cursor cursor [] := ⟨rfl, rfl⟩

/-- The text up to a cursor is what has been passed. -/
theorem textTo_eq (passes : Passes first last passed) : first.textTo last = passed := by
  unfold textTo
  rw [passes.rest, passes.offset, Nat.add_sub_cancel_left, List.take_left]

/-- What is passed in two parts is passed. -/
theorem trans
    (earlier : Passes first middle passed)
    (onward : Passes middle last later) :
    Passes first last (passed ++ later) where
  rest := by rw [earlier.rest, onward.rest, List.append_assoc]
  offset := by
    rw [onward.offset, earlier.offset, List.length_append]
    omega

/-- The next cursor is one character further. -/
theorem next
    {cursor : Cursor}
    {c : Char}
    {rest : List Char}
    (text : cursor.rest = c :: rest) :
    Passes cursor cursor.next [c] := by
  unfold Cursor.next
  rw [text]
  exact ⟨text, rfl⟩

end Cursor.Passes

namespace Pattern

/-- A text that a pattern may pass, with the groups remembered of it, the latest first. -/
def Takes : Pattern → List Char → List (Nat × List Char) → Prop
  | .char accepts, passed, taken => taken = [] ∧ ∃ c, accepts c = true ∧ passed = [c]
  | .seq first second, passed, taken =>
      ∃ front back earlier later,
        Takes first front earlier ∧ Takes second back later ∧
          passed = front ++ back ∧ taken = later ++ earlier
  | .either first second, passed, taken => Takes first passed taken ∨ Takes second passed taken
  | .many _ body, passed, taken =>
      ∃ turns : List (List Char × List (Nat × List Char)),
        (∀ turn ∈ turns, Takes body turn.1 turn.2) ∧
          passed = turns.flatMap Prod.fst ∧ taken = turns.reverse.flatMap Prod.snd
  | .group number body, passed, taken =>
      ∃ inside, Takes body passed inside ∧ taken = (number, passed) :: inside
  | _, passed, taken => passed = [] ∧ taken = []

/-- Whether a pattern may pass a character. -/
def mayTake : Pattern → Char → Bool
  | .char accepts, c => accepts c
  | .seq first second, c => first.mayTake c || second.mayTake c
  | .either first second, c => first.mayTake c || second.mayTake c
  | .many _ body, c => body.mayTake c
  | .group _ body, c => body.mayTake c
  | _, _ => false

/-- Whether a group of some number may have a character. -/
def mayRemember (number : Nat) : Pattern → Char → Bool
  | .seq first second, c => mayRemember number first c || mayRemember number second c
  | .either first second, c => mayRemember number first c || mayRemember number second c
  | .many _ body, c => mayRemember number body c
  | .group other body, c => other = number && body.mayTake c || mayRemember number body c
  | _, _ => false

/-- Whether a pattern has a group of some number. -/
def hasGroup (number : Nat) : Pattern → Bool
  | .seq first second => hasGroup number first || hasGroup number second
  | .either first second => hasGroup number first || hasGroup number second
  | .many _ body => hasGroup number body
  | .group other body => other = number || hasGroup number body
  | _ => false

/-- Whether a pattern takes none of some characters. -/
def takesNone
    (refused : List Char)
    (pattern : Pattern) :
    Bool :=
  refused.all fun c => !pattern.mayTake c

/-- Whether the groups of a number have none of some characters. -/
def remembersNone
    (refused : List Char)
    (pattern : Pattern)
    (number : Nat) :
    Bool :=
  refused.all fun c => !pattern.mayRemember number c

namespace Takes

variable {pattern : Pattern} {passed : List Char} {taken : List (Nat × List Char)}

theorem mayTake
    (takes : Takes pattern passed taken)
    {c : Char}
    (member : c ∈ passed) :
    pattern.mayTake c = true := by
  induction pattern generalizing passed taken with
  | nothing | wordEdge | lineStart | lineEnd =>
      obtain ⟨rfl, -⟩ := takes
      contradiction
  | char accepts =>
      obtain ⟨-, same, accepted, rfl⟩ := takes
      rwa [List.mem_singleton.mp member]
  | seq first second ofFirst ofSecond =>
      obtain ⟨front, back, _, _, takesFront, takesBack, rfl, -⟩ := takes
      rw [Pattern.mayTake, Bool.or_eq_true]
      exact (List.mem_append.mp member).imp (ofFirst takesFront) (ofSecond takesBack)
  | either first second ofFirst ofSecond =>
      rw [Pattern.mayTake, Bool.or_eq_true]
      exact takes.imp (ofFirst · member) (ofSecond · member)
  | many appetite body ofBody =>
      obtain ⟨turns, takesAll, rfl, -⟩ := takes
      obtain ⟨turn, isTurn, inTurn⟩ := List.mem_flatMap.mp member
      exact ofBody (takesAll turn isTurn) inTurn
  | group number body ofBody =>
      obtain ⟨inside, takesBody, -⟩ := takes
      exact ofBody takesBody member

theorem mayRemember
    (takes : Takes pattern passed taken)
    {number : Nat}
    {text : List Char}
    (remembered : (number, text) ∈ taken)
    {c : Char}
    (member : c ∈ text) :
    pattern.mayRemember number c = true := by
  induction pattern generalizing passed taken with
  | nothing | wordEdge | lineStart | lineEnd =>
      obtain ⟨-, rfl⟩ := takes
      contradiction
  | char accepts =>
      obtain ⟨rfl, -⟩ := takes
      contradiction
  | seq first second ofFirst ofSecond =>
      obtain ⟨_, _, earlier, later, takesFront, takesBack, -, rfl⟩ := takes
      rw [Pattern.mayRemember, Bool.or_eq_true]
      exact (List.mem_append.mp remembered).symm.imp (ofFirst takesFront) (ofSecond takesBack)
  | either first second ofFirst ofSecond =>
      rw [Pattern.mayRemember, Bool.or_eq_true]
      exact takes.imp (ofFirst · remembered) (ofSecond · remembered)
  | many appetite body ofBody =>
      obtain ⟨turns, takesAll, -, rfl⟩ := takes
      obtain ⟨turn, isTurn, inTurn⟩ := List.mem_flatMap.mp remembered
      exact ofBody (takesAll turn (List.mem_reverse.mp isTurn)) inTurn
  | group other body ofBody =>
      obtain ⟨inside, takesBody, rfl⟩ := takes
      rw [Pattern.mayRemember, Bool.or_eq_true]
      rcases List.mem_cons.mp remembered with same | inBody
      · cases same
        left
        simpa using takesBody.mayTake member
      · exact .inr (ofBody takesBody inBody)

/-- Characters that the pattern refuses are not taken. -/
theorem notMem
    (takes : Takes pattern passed taken)
    {refused : List Char}
    (none : pattern.takesNone refused = true) :
    ∀ c ∈ passed, c ∉ refused := by
  intro c member isRefused
  have notTaken := List.all_eq_true.mp none c isRefused
  rw [takes.mayTake member] at notTaken
  contradiction

/-- A character that a pattern takes nowhere is not in what it passes. -/
theorem lacks
    (takes : Takes pattern passed taken)
    {c : Char}
    (none : pattern.takesNone [c] = true) :
    c ∉ passed :=
  fun member => takes.notMem none c member List.mem_cons_self

/-- What is remembered stands in what is passed. -/
theorem infix_of_remembered
    (takes : Takes pattern passed taken)
    {number : Nat}
    {text : List Char}
    (remembered : (number, text) ∈ taken) :
    text <:+: passed := by
  induction pattern generalizing passed taken with
  | nothing | wordEdge | lineStart | lineEnd =>
      obtain ⟨-, rfl⟩ := takes
      contradiction
  | char accepts =>
      obtain ⟨rfl, -⟩ := takes
      contradiction
  | seq first second ofFirst ofSecond =>
      obtain ⟨front, back, _, _, takesFront, takesBack, rfl, rfl⟩ := takes
      rcases List.mem_append.mp remembered with later | earlier
      · exact (ofSecond takesBack later).trans (List.suffix_append front back).isInfix
      · exact (ofFirst takesFront earlier).trans (List.prefix_append front back).isInfix
  | either first second ofFirst ofSecond =>
      exact takes.elim (ofFirst · remembered) (ofSecond · remembered)
  | many appetite body ofBody =>
      obtain ⟨turns, takesAll, rfl, rfl⟩ := takes
      obtain ⟨turn, isTurn, inTurn⟩ := List.mem_flatMap.mp remembered
      have member := List.mem_reverse.mp isTurn
      rw [List.flatMap_def]
      exact (ofBody (takesAll turn member) inTurn).trans
        (List.infix_of_mem_flatten (List.mem_map_of_mem member))
  | group other body ofBody =>
      obtain ⟨inside, takesBody, rfl⟩ := takes
      rcases List.mem_cons.mp remembered with same | inBody
      · cases same
        exact List.infix_rfl
      · exact ofBody takesBody inBody

theorem hasGroup
    (takes : Takes pattern passed taken)
    {number : Nat}
    {text : List Char}
    (remembered : (number, text) ∈ taken) :
    pattern.hasGroup number = true := by
  induction pattern generalizing passed taken with
  | nothing | wordEdge | lineStart | lineEnd =>
      obtain ⟨-, rfl⟩ := takes
      contradiction
  | char accepts =>
      obtain ⟨rfl, -⟩ := takes
      contradiction
  | seq first second ofFirst ofSecond =>
      obtain ⟨_, _, earlier, later, takesFront, takesBack, -, rfl⟩ := takes
      rw [Pattern.hasGroup, Bool.or_eq_true]
      exact (List.mem_append.mp remembered).symm.imp (ofFirst takesFront) (ofSecond takesBack)
  | either first second ofFirst ofSecond =>
      rw [Pattern.hasGroup, Bool.or_eq_true]
      exact takes.imp (ofFirst · remembered) (ofSecond · remembered)
  | many appetite body ofBody =>
      obtain ⟨turns, takesAll, -, rfl⟩ := takes
      obtain ⟨turn, isTurn, inTurn⟩ := List.mem_flatMap.mp remembered
      exact ofBody (takesAll turn (List.mem_reverse.mp isTurn)) inTurn
  | group other body ofBody =>
      obtain ⟨inside, takesBody, rfl⟩ := takes
      rw [Pattern.hasGroup, Bool.or_eq_true]
      rcases List.mem_cons.mp remembered with same | inBody
      · cases same
        simp
      · exact .inr (ofBody takesBody inBody)

end Takes

/-- Patterns one after the other take the parts of a text one after the other. -/
theorem takes_all_cons
    {pattern : Pattern}
    {rest : List Pattern}
    {passed : List Char}
    {taken : List (Nat × List Char)}
    (takes : Takes (all (pattern :: rest)) passed taken) :
    ∃ front back earlier later,
      Takes pattern front earlier ∧ Takes (all rest) back later ∧
        passed = front ++ back ∧ taken = later ++ earlier := by
  cases rest with
  | nil => exact ⟨passed, [], taken, [], takes, ⟨rfl, rfl⟩, by simp, rfl⟩
  | cons next rest => exact takes

/-- A list of patterns takes what its two parts take. -/
theorem takes_all_append
    {first second : List Pattern}
    {passed : List Char}
    {taken : List (Nat × List Char)}
    (takes : Takes (all (first ++ second)) passed taken) :
    ∃ front back earlier later,
      Takes (all first) front earlier ∧ Takes (all second) back later ∧
        passed = front ++ back ∧ taken = later ++ earlier := by
  induction first generalizing passed taken with
  | nil => exact ⟨[], passed, [], taken, ⟨rfl, rfl⟩, takes, rfl, by simp⟩
  | cons pattern first inductionHypothesis =>
      obtain ⟨head, rest, ofHead, ofRest, takesHead, takesRest, rfl, rfl⟩ := takes_all_cons takes
      obtain ⟨front, back, earlier, later, takesFirst, takesSecond, rfl, rfl⟩ :=
        inductionHypothesis takesRest
      refine ⟨head ++ front, back, earlier ++ ofHead, later, ?_, takesSecond, by simp, by simp⟩
      cases first with
      | nil =>
          obtain ⟨rfl, rfl⟩ := takesFirst
          rw [List.append_nil, List.nil_append]
          exact takesHead
      | cons next first => exact ⟨_, _, _, _, takesHead, takesFirst, rfl, rfl⟩

/-- A group among patterns one after the other takes what stands between theirs. -/
theorem takes_around
    {first second : List Pattern}
    {number : Nat}
    {body : Pattern}
    {passed : List Char}
    {taken : List (Nat × List Char)}
    (takes : Takes (all (first ++ .group number body :: second)) passed taken) :
    ∃ front text back earlier inside later,
      Takes (all first) front earlier ∧ Takes body text inside ∧ Takes (all second) back later ∧
        passed = front ++ text ++ back ∧
        taken = later ++ (number, text) :: (inside ++ earlier) := by
  obtain ⟨front, rest, earlier, others, takesFront, takesRest, rfl, rfl⟩ := takes_all_append takes
  obtain ⟨text, back, ofGroup, later, takesGroup, takesBack, rfl, rfl⟩ := takes_all_cons takesRest
  obtain ⟨inside, takesBody, rfl⟩ := takesGroup
  exact ⟨front, text, back, earlier, inside, later, takesFront, takesBody, takesBack, by simp,
    by simp⟩

/-- A group with its text. -/
def Group.numbered (group : Group) : Nat × List Char := (group.number, group.text)

/-- What a run takes on the way from a place to another. -/
structure Took
    (pattern : Pattern)
    (progress after : Progress)
    (passed : List Char)
    (remembered : List Group) :
    Prop where
  passes : progress.cursor.Passes after.cursor passed
  groups : after.groups = remembered ++ progress.groups
  takes : Takes pattern passed (remembered.map Group.numbered)

theorem took_turnsOf
    {body : Pattern}
    {bodyRuns : Progress → List Progress}
    (ofBody :
      ∀ progress, ∀ after ∈ bodyRuns progress,
        ∃ passed remembered, Took body progress after passed remembered)
    (appetite : Appetite)
    {turns : Nat}
    {progress after : Progress}
    (member : after ∈ turnsOf appetite bodyRuns turns progress) :
    ∃ passed remembered, Took (.many appetite body) progress after passed remembered := by
  have stays : Took (.many appetite body) progress progress [] [] :=
    ⟨.refl _, rfl, [], by simp, rfl, rfl⟩
  induction turns generalizing progress with
  | zero =>
      obtain rfl := List.mem_singleton.mp member
      exact ⟨_, _, stays⟩
  | succ turns inductionHypothesis =>
      have reached :
          after = progress ∨
            ∃ middle ∈ bodyRuns progress, after ∈ turnsOf appetite bodyRuns turns middle := by
        cases appetite <;>
          simp only [turnsOf, List.mem_append, List.mem_cons, List.mem_flatMap, List.mem_filter,
            List.not_mem_nil, or_false] at member
        · rcases member with ⟨middle, ⟨isMiddle, -⟩, onward⟩ | same
          · exact .inr ⟨middle, isMiddle, onward⟩
          · exact .inl same
        · rcases member with same | ⟨middle, ⟨isMiddle, -⟩, onward⟩
          · exact .inl same
          · exact .inr ⟨middle, isMiddle, onward⟩
      rcases reached with rfl | ⟨middle, isMiddle, onward⟩
      · exact ⟨_, _, stays⟩
      · obtain ⟨passed, remembered, took⟩ := ofBody progress middle isMiddle
        obtain ⟨later, others, more⟩ :=
          inductionHypothesis onward ⟨.refl _, rfl, [], by simp, rfl, rfl⟩
        obtain ⟨all, takesAll, isLater, areOthers⟩ := more.takes
        refine ⟨passed ++ later, others ++ remembered, took.passes.trans more.passes, ?_,
          (passed, remembered.map Group.numbered) :: all, ?_, ?_, ?_⟩
        · rw [more.groups, took.groups, List.append_assoc]
        · exact List.forall_mem_cons.mpr ⟨took.takes, takesAll⟩
        · rw [List.flatMap_cons, isLater]
        · rw [List.map_append, areOthers]
          simp

theorem took_check
    {pattern : Pattern}
    {holds : Bool}
    {progress after : Progress}
    (nothing : Takes pattern [] [])
    (member : after ∈ check holds progress) :
    ∃ passed remembered, Took pattern progress after passed remembered := by
  cases holds with
  | false => contradiction
  | true =>
      obtain rfl := List.mem_singleton.mp member
      exact ⟨[], [], .refl _, rfl, nothing⟩

/-- Every run takes a text that its pattern may pass. -/
theorem took_runs
    {isWord : Char → Bool}
    {turns : Nat}
    {pattern : Pattern}
    {progress after : Progress}
    (member : after ∈ runs isWord turns pattern progress) :
    ∃ passed remembered, Took pattern progress after passed remembered := by
  induction pattern generalizing progress after with
  | nothing =>
      obtain rfl := List.mem_singleton.mp member
      exact ⟨[], [], .refl _, rfl, rfl, rfl⟩
  | char accepts =>
      unfold runs at member
      split at member
      · contradiction
      · next c rest text =>
          cases accepted : accepts c with
          | false => simp [accepted, check] at member
          | true =>
              rw [accepted] at member
              obtain rfl := List.mem_singleton.mp member
              exact ⟨[c], [], .next text, rfl, rfl, c, accepted, rfl⟩
  | seq first second ofFirst ofSecond =>
      obtain ⟨middle, isMiddle, onward⟩ := List.mem_flatMap.mp member
      obtain ⟨passed, remembered, took⟩ := ofFirst isMiddle
      obtain ⟨later, others, more⟩ := ofSecond onward
      exact ⟨passed ++ later, others ++ remembered, took.passes.trans more.passes,
        by rw [more.groups, took.groups, List.append_assoc],
        _, _, _, _, took.takes, more.takes, rfl, List.map_append⟩
  | either first second ofFirst ofSecond =>
      rcases List.mem_append.mp member with byFirst | bySecond
      · obtain ⟨passed, remembered, took⟩ := ofFirst byFirst
        exact ⟨passed, remembered, took.passes, took.groups, .inl took.takes⟩
      · obtain ⟨passed, remembered, took⟩ := ofSecond bySecond
        exact ⟨passed, remembered, took.passes, took.groups, .inr took.takes⟩
  | many appetite body ofBody => exact took_turnsOf (fun _ _ => ofBody) appetite member
  | group number body ofBody =>
      obtain ⟨inside, ran, rfl⟩ := List.mem_map.mp member
      obtain ⟨passed, remembered, took⟩ := ofBody ran
      refine ⟨passed, ⟨number, progress.cursor, inside.cursor⟩ :: remembered, took.passes, ?_,
        _, took.takes, ?_⟩
      · rw [remember, took.groups]
        rfl
      · have text : Group.text ⟨number, progress.cursor, inside.cursor⟩ = passed :=
          took.passes.textTo_eq
        rw [List.map_cons, Group.numbered, text]
  | wordEdge => exact took_check ⟨rfl, rfl⟩ member
  | lineStart => exact took_check ⟨rfl, rfl⟩ member
  | lineEnd => exact took_check ⟨rfl, rfl⟩ member

/-- A match starts at its place and takes its text. -/
theorem took_of_matchAt?
    {pattern : Pattern}
    {turns : Nat}
    {cursor : Cursor}
    {found : Match}
    (matched : pattern.matchAt? turns cursor = some found) :
    found.first = cursor ∧
      Took pattern ⟨cursor, []⟩ ⟨found.last, found.groups⟩ found.text found.groups ∧
        found.text ≠ [] := by
  unfold matchAt? at matched
  rw [search_some] at matched
  split at matched
  · contradiction
  · next preferred head =>
      obtain ⟨passed, remembered, took⟩ := took_runs (List.mem_of_head? head)
      split at matched
      · next further =>
          cases matched
          have text : Match.text ⟨cursor, preferred.cursor, preferred.groups⟩ = passed :=
            took.passes.textTo_eq
          obtain rfl : preferred.groups = remembered :=
            took.groups.trans (List.append_nil remembered)
          refine ⟨rfl, ?_, ?_⟩
          · rw [text]
            exact took
          · rw [text]
            rintro rfl
            have stays : preferred.cursor.offset = cursor.offset := took.passes.offset
            omega
      · contradiction

/-- The text of a match is one that its pattern may pass. -/
theorem takes_of_matchAt?
    {pattern : Pattern}
    {turns : Nat}
    {cursor : Cursor}
    {found : Match}
    (matched : pattern.matchAt? turns cursor = some found) :
    Takes pattern found.text (found.groups.map Group.numbered) :=
  (took_of_matchAt? matched).2.1.takes

/-- A match of a pattern in front of a line end stops at one. -/
theorem atLineEnd_of_matchAt?
    {body : Pattern}
    {turns : Nat}
    {cursor : Cursor}
    {found : Match}
    (matched : (Pattern.seq body .lineEnd).matchAt? turns cursor = some found) :
    atLineEnd found.last = true := by
  unfold matchAt? at matched
  rw [search_some] at matched
  split at matched
  · contradiction
  · next preferred head =>
      obtain ⟨middle, -, onward⟩ := List.mem_flatMap.mp (List.mem_of_head? head)
      unfold runs check at onward
      split at onward
      · next ends =>
          obtain rfl := List.mem_singleton.mp onward
          split at matched
          · cases matched
            exact ends
          · contradiction
      · contradiction

namespace Match

variable {found : Match} {number : Nat}

theorem group_eq_nil_or_mem :
    found.group number = [] ∨
      (number, found.group number) ∈ found.groups.map Group.numbered := by
  unfold group group?
  cases first : found.groups.find? fun group => group.number = number with
  | none => exact .inl rfl
  | some group =>
      have same : group.number = number := by simpa using List.find?_some first
      right
      rw [← same]
      exact List.mem_map_of_mem (List.mem_of_find?_eq_some first)

/-- A group has only characters that its pattern may remember. -/
theorem mayRemember_group
    {pattern : Pattern}
    (takes : Takes pattern found.text (found.groups.map Group.numbered))
    {c : Char}
    (member : c ∈ found.group number) :
    pattern.mayRemember number c = true := by
  rcases @group_eq_nil_or_mem found number with nothing | remembered
  · rw [nothing] at member
    contradiction
  · exact takes.mayRemember remembered member

/-- Characters that the group refuses are not remembered. -/
theorem notMem_group
    {pattern : Pattern}
    (takes : Takes pattern found.text (found.groups.map Group.numbered))
    {refused : List Char}
    (none : pattern.remembersNone refused number = true) :
    ∀ c ∈ found.group number, c ∉ refused := by
  intro c member isRefused
  have notRemembered := List.all_eq_true.mp none c isRefused
  rw [mayRemember_group takes member] at notRemembered
  contradiction

theorem infix_group
    {pattern : Pattern}
    (takes : Takes pattern found.text (found.groups.map Group.numbered))
    (number : Nat) :
    found.group number <:+: found.text := by
  rcases @group_eq_nil_or_mem found number with nothing | remembered
  · rw [nothing]
    exact List.nil_infix
  · exact takes.infix_of_remembered remembered

/-- The latest group of a number is what the match has of it. -/
theorem group_eq_of_groups
    {text : List Char}
    {earlier later : List (Nat × List Char)}
    (groups : found.groups.map Group.numbered = later ++ (number, text) :: earlier)
    (isLatest : ∀ entry ∈ later, entry.1 ≠ number) :
    found.group number = text := by
  have latest :
      ((found.groups.map Group.numbered).find? fun entry => entry.1 = number) =
        some (number, text) := by
    rw [groups, List.find?_append, List.find?_eq_none.mpr (by simpa using isLatest)]
    simp
  rw [List.find?_map] at latest
  obtain ⟨group, first, isGroup⟩ := Option.map_eq_some_iff.mp latest
  cases isGroup
  unfold Match.group Match.group?
  have same : (found.groups.find? fun other => other.number = group.number) = some group := first
  rw [same]
  rfl

/-- A match of patterns one after the other has what each of them takes around a group. -/
theorem around_group
    {first second : List Pattern}
    {body : Pattern}
    (takes :
      Takes (all (first ++ .group number body :: second)) found.text
        (found.groups.map Group.numbered))
    (notAgain : (all second).hasGroup number = false) :
    ∃ front back earlier inside later,
      Takes (all first) front earlier ∧ Takes body (found.group number) inside ∧
        Takes (all second) back later ∧ found.text = front ++ found.group number ++ back := by
  obtain ⟨front, text, back, earlier, inside, later, takesFront, takesBody, takesBack, whole,
    groups⟩ := takes_around takes
  obtain rfl : found.group number = text := by
    refine group_eq_of_groups groups fun entry member same => ?_
    have has := takesBack.hasGroup member
    rw [same, notAgain] at has
    contradiction
  exact ⟨front, back, earlier, inside, later, takesFront, takesBody, takesBack, whole⟩

end Match

end Pattern

end LedSketch
