import LedSketch.Sketch.Argument
import Mathlib.Data.List.Flatten
import Mathlib.Data.List.TakeDrop

namespace LedSketch.Sketch

/-!
# Lines of argument lists

Taking a list apart, trimming its items and leaving some of them out only leaves out
characters, and what is put between the items when they are joined has no line end.
-/

theorem trim_sublist (text : List Char) : (Text.trim text).Sublist text := by
  have front := List.dropWhile_sublist Text.isBlank (l := text)
  have back :=
    (List.dropWhile_sublist Text.isBlank (l := (text.dropWhile Text.isBlank).reverse)).reverse
  rw [List.reverse_reverse] at back
  exact back.trans front

theorem flatten_map_trim_sublist (texts : List (List Char)) :
    (texts.map Text.trim).flatten.Sublist texts.flatten := by
  induction texts with
  | nil => exact List.Sublist.slnil
  | cons text texts inductionHypothesis =>
      exact (trim_sublist text).append inductionHypothesis

/-- Only the separating commas are left out. -/
theorem splitFrom_sublist
    (scan : ArgumentScan)
    (text : List Char) :
    ((splitFrom scan text).1 ++ (splitFrom scan text).2.flatten).Sublist text := by
  induction text generalizing scan with
  | nil => exact List.Sublist.slnil
  | cons c rest inductionHypothesis =>
      have later := inductionHypothesis (scan.read c)
      unfold splitFrom
      dsimp only
      split
      · exact later.cons c
      · exact later.cons_cons c

theorem splitArguments_sublist (text : List Char) :
    (splitArguments text).flatten.Sublist text := by
  unfold splitArguments
  dsimp only
  split
  · exact List.nil_sublist text
  · exact (flatten_map_trim_sublist _).trans (splitFrom_sublist .initial text)

/-- The stretches between separators are those of the library. -/
theorem splitOn_eq
    (separator : Char)
    (text : List Char) :
    splitOn separator text = text.splitOn separator := by
  unfold List.splitOn
  induction text with
  | nil => rfl
  | cons c rest inductionHypothesis =>
      rw [splitOn, inductionHypothesis, List.splitOnP_cons_eq_if_modifyHead]
      rcases stretches : rest.splitOnP (· == separator) with _ | ⟨first, others⟩
      · exact absurd stretches (List.splitOnP_ne_nil _ rest)
      · simp

/-- Only the separators are left out. -/
theorem splitOn_sublist
    (separator : Char)
    (text : List Char) :
    (splitOn separator text).flatten.Sublist text := by
  induction text with
  | nil => exact List.Sublist.slnil
  | cons c rest inductionHypothesis =>
      unfold splitOn
      split
      · exact List.nil_sublist _
      · next first others stretches =>
          rw [stretches] at inductionHypothesis
          split
          · exact inductionHypothesis.cons c
          · exact inductionHypothesis.cons_cons c

/-- Joining adds nothing but commas and blanks. -/
theorem count_joinArguments_of_ne
    {c : Char}
    (notAdded : c ∉ [',', ' '])
    (arguments : List (List Char)) :
    (joinArguments arguments).count c = arguments.flatten.count c := by
  unfold joinArguments
  induction arguments with
  | nil => rfl
  | cons argument rest inductionHypothesis =>
      cases rest with
      | nil => simp
      | cons next rest =>
          have between : [',', ' '].count c = 0 := List.count_eq_zero.mpr notAdded
          rw [List.intercalate_cons_cons, List.count_append, List.count_append, between,
            inductionHypothesis]
          simp only [List.flatten_cons, List.count_append, Nat.add_zero]

theorem count_joinArguments (arguments : List (List Char)) :
    (joinArguments arguments).count '\n' = arguments.flatten.count '\n' :=
  count_joinArguments_of_ne (by decide) arguments

theorem dropBracketPairs_sublist (text : List Char) :
    (dropBracketPairs text).Sublist text := by
  fun_induction dropBracketPairs text with
  | case1 rest inductionHypothesis => exact (inductionHypothesis.cons '[').cons ']'
  | case2 text => exact List.Sublist.refl text

/-- The last name of a text read backwards is part of it. -/
theorem lastName?_sublist
    {backwards name : List Char}
    (found : lastName? backwards = some name) :
    name.reverse.Sublist backwards := by
  unfold lastName? at found
  dsimp only at found
  split at found
  · contradiction
  · cases found
    rw [List.reverse_reverse]
    exact (List.takeWhile_sublist _).trans (List.dropWhile_sublist _)

/-- A parameter that is reduced to its name and its default gets nothing but an equals sign. -/
theorem count_parameterName?_le_of_ne
    {c : Char}
    (notAdded : c ∉ " = ".toList)
    {parameter name : List Char}
    (reduced : parameterName? parameter = some name) :
    name.count c ≤ parameter.count c := by
  unfold parameterName? at reduced
  rw [List.span_eq_takeWhile_dropWhile] at reduced
  have whole := List.takeWhile_append_dropWhile (p := fun c => decide (c ≠ '=')) (l := parameter)
  generalize parameter.takeWhile _ = declared, parameter.dropWhile _ = afterDeclared at *
  dsimp only at reduced
  split at reduced
  · contradiction
  · obtain ⟨last, found, rfl⟩ := Option.map_eq_some_iff.mp reduced
    have lastBound : last.count c ≤ declared.count c := by
      have inside := (lastName?_sublist found).trans
        ((List.dropWhile_sublist _).trans (dropBracketPairs_sublist _))
      have counted := inside.count_le c
      rw [List.count_reverse, List.count_reverse] at counted
      exact Nat.le_trans counted ((trim_sublist declared).count_le c)
    have defaultBound :
        (Text.trim (afterDeclared.drop 1)).count c ≤ afterDeclared.count c :=
      ((trim_sublist _).trans (List.drop_sublist 1 _)).count_le c
    have equals : " = ".toList.count c = 0 := List.count_eq_zero.mpr notAdded
    rw [← whole, List.count_append]
    split
    · omega
    · rw [List.count_append, List.count_append, equals]
      omega

theorem count_filterMap_parameterName?_le_of_ne
    {c : Char}
    (notAdded : c ∉ " = ".toList)
    (parameters : List (List Char)) :
    (parameters.filterMap parameterName?).flatten.count c ≤ parameters.flatten.count c := by
  induction parameters with
  | nil => exact Nat.le_refl _
  | cons parameter rest inductionHypothesis =>
      rw [List.flatten_cons, List.count_append]
      cases reduced : parameterName? parameter with
      | none =>
          rw [List.filterMap_cons_none reduced]
          omega
      | some name =>
          have bound := count_parameterName?_le_of_ne notAdded reduced
          rw [List.filterMap_cons_some reduced, List.flatten_cons, List.count_append]
          omega

theorem count_filterMap_parameterName?_le (parameters : List (List Char)) :
    (parameters.filterMap parameterName?).flatten.count '\n' ≤
      parameters.flatten.count '\n' :=
  count_filterMap_parameterName?_le_of_ne (by decide) parameters

end LedSketch.Sketch
