import LedSketch.Pattern.Basic

namespace LedSketch.Pattern

/-!
# The preferred run

Searching for the first run that can be continued does not need the list of all
runs.  A search takes what is to come as a function, tries the alternatives of a
pattern in their order, and goes back to the next one only where that fails.
`search_eq_findSome?` says that it finds what looking through `runs` would find.
-/

/-- The result of the first of two searches that has one; the second may be left out. -/
def firstOf
    (first : Option α)
    (second : Unit → Option α) :
    Option α :=
  match first with
  | some result => some result
  | none => second ()

/-- Search the runs of a repetition, given how to search those of its body. -/
def searchTurns
    (appetite : Appetite)
    (body : (Progress → Option α) → Progress → Option α)
    (onward : Progress → Option α) :
    Nat → Progress → Option α
  | 0, progress => onward progress
  | turns + 1, progress =>
      let again := fun _ : Unit =>
        body
          (fun after =>
            if progress.cursor.offset < after.cursor.offset then
              searchTurns appetite body onward turns after
            else
              none)
          progress
      match appetite with
      | .greedy => firstOf (again ()) fun _ => onward progress
      | .lazy => firstOf (onward progress) again

/-- The first result that a run of the pattern leads to. -/
def search
    (isWord : Char → Bool)
    (turns : Nat) :
    Pattern → (Progress → Option α) → Progress → Option α
  | .nothing, onward, progress => onward progress
  | .char accepts, onward, progress =>
      match progress.cursor.rest with
      | [] => none
      | c :: _ => if accepts c then onward (pass progress) else none
  | .seq first second, onward, progress =>
      search isWord turns first (search isWord turns second onward) progress
  | .either first second, onward, progress =>
      firstOf (search isWord turns first onward progress) fun _ =>
        search isWord turns second onward progress
  | .many appetite body, onward, progress =>
      searchTurns appetite (search isWord turns body) onward turns progress
  | .group number body, onward, progress =>
      search isWord turns body (fun after => onward (remember number progress after)) progress
  | .wordEdge, onward, progress =>
      if atWordEdge isWord progress.cursor then onward progress else none
  | .lineStart, onward, progress =>
      if atLineStart progress.cursor then onward progress else none
  | .lineEnd, onward, progress =>
      if atLineEnd progress.cursor then onward progress else none

/-- Taking the first result is looking through both searches in turn. -/
theorem firstOf_eq_or
    (first : Option α)
    (second : Unit → Option α) :
    firstOf first second = first.or (second ()) := by
  cases first <;> rfl

/-- Looking through a place that a condition allows. -/
theorem findSome?_check
    (holds : Bool)
    (onward : Progress → Option α)
    (progress : Progress) :
    (check holds progress).findSome? onward =
      if holds then onward progress else none := by
  cases holds <;> simp [check]

/-- Looking through a filtered list is refusing the other items. -/
theorem findSome?_filter_eq
    (items : List β)
    (keep : β → Bool)
    (onward : β → Option α) :
    (items.filter keep).findSome? onward =
      items.findSome? fun item => if keep item then onward item else none := by
  induction items with
  | nil => rfl
  | cons item rest inductionHypothesis =>
      by_cases kept : keep item
      · simp [kept, inductionHypothesis, List.findSome?_cons]
      · simp [kept, inductionHypothesis]

/-- Looking through joined lists is looking through each of them in turn. -/
theorem findSome?_flatMap_eq
    (items : List β)
    (expand : β → List γ)
    (onward : γ → Option α) :
    (items.flatMap expand).findSome? onward =
      items.findSome? fun item => (expand item).findSome? onward := by
  induction items with
  | nil => rfl
  | cons item rest inductionHypothesis =>
      rw [List.flatMap_cons, List.findSome?_append, inductionHypothesis, List.findSome?_cons]
      cases (expand item).findSome? onward <;> rfl

/-- Searching a repetition is looking through its runs, if that holds for the body. -/
theorem searchTurns_eq_findSome?
    {body : (Progress → Option α) → Progress → Option α}
    {bodyRuns : Progress → List Progress}
    (bodySame : ∀ onward progress, body onward progress = (bodyRuns progress).findSome? onward)
    (appetite : Appetite)
    (onward : Progress → Option α)
    (turns : Nat)
    (progress : Progress) :
    searchTurns appetite body onward turns progress =
      (turnsOf appetite bodyRuns turns progress).findSome? onward := by
  induction turns generalizing progress with
  | zero => simp [searchTurns, turnsOf]
  | succ turns inductionHypothesis =>
      cases appetite <;>
        simp only [searchTurns, turnsOf, firstOf_eq_or, bodySame, inductionHypothesis,
          List.findSome?_append, List.findSome?_cons, List.findSome?_nil,
          findSome?_flatMap_eq, findSome?_filter_eq, decide_eq_true_eq]
      · cases onward progress <;> rfl
      · cases onward progress <;> rfl

/-- A search finds what looking through all runs in their order finds. -/
theorem search_eq_findSome?
    (isWord : Char → Bool)
    (turns : Nat)
    (pattern : Pattern)
    (onward : Progress → Option α)
    (progress : Progress) :
    search isWord turns pattern onward progress =
      (runs isWord turns pattern progress).findSome? onward := by
  induction pattern generalizing onward progress with
  | nothing => simp [search, runs]
  | char accepts =>
      cases text : progress.cursor.rest with
      | nil => simp [search, runs, text]
      | cons c rest => simp [search, runs, text, findSome?_check]
  | seq first second firstSame secondSame =>
      have same : search isWord turns second onward =
          fun after => (runs isWord turns second after).findSome? onward :=
        funext fun after => secondSame onward after
      simp only [search, runs, firstSame, same, findSome?_flatMap_eq]
  | either first second firstSame secondSame =>
      simp only [search, runs, firstOf_eq_or, firstSame, secondSame, List.findSome?_append]
  | many appetite body bodySame =>
      exact searchTurns_eq_findSome? bodySame appetite onward turns progress
  | group number body bodySame =>
      simp only [search, runs, bodySame, List.findSome?_map]
      rfl
  | wordEdge => simp only [search, runs, findSome?_check]
  | lineStart => simp only [search, runs, findSome?_check]
  | lineEnd => simp only [search, runs, findSome?_check]

/-- Searching for any run at all gives the first one of the list. -/
theorem search_some
    (isWord : Char → Bool)
    (turns : Nat)
    (pattern : Pattern)
    (progress : Progress) :
    search isWord turns pattern some progress = (runs isWord turns pattern progress).head? := by
  rw [search_eq_findSome?]
  cases runs isWord turns pattern progress <;> rfl

end LedSketch.Pattern
