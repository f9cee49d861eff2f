/-
RouteRegistry/Proofs/Source/TextBlocks.lean

Text blocks that are written differently and have the same value.

What is stripped off a line is white space, a margin in front and whatever there
is at the end (`trims_stripLine`).  The margin is as wide as the significant
lines share.  Spaces in front of all lines make it wider by as many characters
(`commonIndent_indented`), so each line loses just these spaces more
(`stripLine_indented`).  A carriage return in front of a line end belongs to the
white space at the end of its line, and never counts for the margin
(`commonIndent_returned`, `stripLine_concat`).

Main results: the value of a text block does not depend on how far the body as a
whole is indented, and nothing but white space is stripped off
(`literalValue_indented`).  It does not depend on how the lines end
(`literalValue_withReturns`).
-/
import Mathlib.Data.List.Forall2
import RouteRegistry.Proofs.Source.Quoting
import RouteRegistry.Proofs.Text.Splitting
import RouteRegistry.Proofs.Text.Trimming

namespace RouteRegistry

namespace Source

namespace TextBlock

/-! ### Text blocks as they are written -/

/-- The text between the quotes of a text block, in its quotes. -/
def quoted (block : List Char) : List Char := ['"', '"', '"'] ++ (block ++ ['"', '"', '"'])

/-- The text block of the lines, with `opening` behind its opening quotes. -/
def written (opening : List Char) (body : List (List Char)) : List Char :=
  quoted (opening ++ '\n' :: List.intercalate ['\n'] body)

theorem literalValue_quoted (block : List Char) :
    literalValue (quoted block) = decode (strip block) := by
  unfold literalValue quoted between?
  rw [Text.stripStart?_append, Option.bind_some, Text.stripEnd?_append]

theorem dropWhile_ne_append {opening : List Char} (h : '\n' ∉ opening) (s : List Char) :
    (opening ++ '\n' :: s).dropWhile (· ≠ '\n') = '\n' :: s := by
  have before : ∀ c ∈ opening, decide (c ≠ '\n') = true := by
    intro c hc
    exact decide_eq_true fun e => h (e ▸ hc)
  rw [List.dropWhile_append_of_pos before]
  exact List.dropWhile_cons_of_neg (by simp)

/-- The lines of the body are the lines that were written. -/
theorem lines_written {opening : List Char} {body : List (List Char)} (first : '\n' ∉ opening)
    (some_line : body ≠ []) (apart : ∀ line ∈ body, '\n' ∉ line) :
    lines (opening ++ '\n' :: List.intercalate ['\n'] body) = body := by
  unfold lines
  rw [dropWhile_ne_append first]
  exact Text.splitOn_intercalate some_line apart

/-- The value of a written text block: its lines without the common indentation, joined again. -/
theorem literalValue_written {opening : List Char} {body : List (List Char)}
    (first : '\n' ∉ opening) (some_line : body ≠ []) (apart : ∀ line ∈ body, '\n' ∉ line) :
    literalValue (written opening body) =
      decode (List.intercalate ['\n'] (body.map (stripLine (commonIndent body)))) := by
  unfold written
  rw [literalValue_quoted, strip, lines_written first some_line apart]

/-! ### What is stripped off -/

/-- The line is what is left of it, with white space in front and behind. -/
def Trims (line kept : List Char) : Prop :=
  ∃ margin tail, margin.all isBlank = true ∧ tail.all isBlank = true ∧
    line = margin ++ kept ++ tail

theorem indentOf_le_length (line : List Char) : indentOf line ≤ line.length :=
  (List.takeWhile_sublist isBlank).length_le

/-- The characters that count for the indentation are blank. -/
theorem all_take_of_le_indentOf {n : Nat} {line : List Char} (h : n ≤ indentOf line) :
    (line.take n).all isBlank = true := by
  have inside : line.take n = (line.takeWhile isBlank).take n := by
    conv_lhs => rw [← List.takeWhile_append_dropWhile (p := isBlank) (l := line)]
    exact List.take_append_of_le_length h
  rw [inside]
  apply List.all_eq_true.2
  intro c hc
  exact List.mem_takeWhile_imp (List.mem_of_mem_take hc)

/-- To strip a line takes away white space only. -/
theorem trims_stripLine (n : Nat) (line : List Char) : Trims line (stripLine n line) := by
  obtain ⟨tail, blank, split⟩ :=
    Text.exists_trimEnd_append (line.drop (min n (indentOf line)))
  refine ⟨line.take (min n (indentOf line)), tail,
    all_take_of_le_indentOf (Nat.min_le_right _ _), blank, ?_⟩
  rw [List.append_assoc]
  unfold stripLine
  rw [← split, List.take_append_drop]

/-! ### Indentation -/

/-- The lines with `k` further spaces in front of each. -/
def indented (k : Nat) (body : List (List Char)) : List (List Char) :=
  body.map (List.replicate k ' ' ++ ·)

theorem all_replicate_space (k : Nat) : ∀ c ∈ List.replicate k ' ', isBlank c = true := by
  intro c hc
  rw [List.eq_of_mem_replicate hc]
  rfl

theorem all_isBlank_indented (k : Nat) (line : List Char) :
    (List.replicate k ' ' ++ line).all isBlank = line.all isBlank := by
  rw [List.all_append, List.all_eq_true.2 (all_replicate_space k), Bool.true_and]

theorem indentOf_indented (k : Nat) (line : List Char) :
    indentOf (List.replicate k ' ' ++ line) = k + indentOf line := by
  unfold indentOf
  rw [List.takeWhile_append_of_pos (all_replicate_space k), List.length_append,
    List.length_replicate]

theorem significant_cons (line : List Char) {rest : List (List Char)} (h : rest ≠ []) :
    significant (line :: rest) =
      if line.all isBlank then significant rest else line :: significant rest := by
  obtain ⟨second, rest, rfl⟩ := List.exists_cons_of_ne_nil h
  rw [significant]
  exact h

/-- More indentation makes no line more or less significant. -/
theorem significant_indented (k : Nat) (body : List (List Char)) :
    significant (indented k body) = indented k (significant body) := by
  induction body with
  | nil => rfl
  | cons line rest ih =>
    cases rest with
    | nil => rfl
    | cons second rest =>
      have some_line : indented k (second :: rest) ≠ [] := List.cons_ne_nil _ _
      show significant ((List.replicate k ' ' ++ line) :: indented k (second :: rest)) = _
      rw [significant_cons _ some_line, significant_cons _ (List.cons_ne_nil _ _), ih,
        all_isBlank_indented]
      split <;> rfl

/-- The last line is always significant, since the closing quotes stand there. -/
theorem significant_ne_nil {body : List (List Char)} (h : body ≠ []) : significant body ≠ [] := by
  induction body with
  | nil => exact absurd rfl h
  | cons line rest ih =>
    cases rest with
    | nil => exact List.cons_ne_nil _ _
    | cons second rest =>
      rw [significant_cons _ (List.cons_ne_nil _ _)]
      split
      · exact ih (List.cons_ne_nil _ _)
      · exact List.cons_ne_nil _ _

theorem min?_map_add (k : Nat) (ns : List Nat) : (ns.map (k + ·)).min? = ns.min?.map (k + ·) := by
  rcases h : ns.min? with - | m
  · rw [List.min?_eq_none_iff.1 h]
    rfl
  · obtain ⟨mem, least⟩ := List.min?_eq_some_iff.1 h
    apply List.min?_eq_some_iff.2
    refine ⟨List.mem_map_of_mem mem, fun b hb => ?_⟩
    obtain ⟨n, hn, rfl⟩ := List.mem_map.1 hb
    exact Nat.add_le_add_left (least n hn) k

/-- The shared indentation grows by the spaces in front of all lines. -/
theorem commonIndent_indented (k : Nat) {body : List (List Char)} (h : body ≠ []) :
    commonIndent (indented k body) = k + commonIndent body := by
  have widths : (indented k (significant body)).map indentOf =
      ((significant body).map indentOf).map (k + ·) := by
    unfold indented
    rw [List.map_map, List.map_map]
    exact List.map_congr_left fun line _ => indentOf_indented k line
  unfold commonIndent
  rw [significant_indented, widths, min?_map_add]
  rcases e : ((significant body).map indentOf).min? with - | m
  · -- there is always a significant line, the last one
    rw [List.min?_eq_none_iff, List.map_eq_nil_iff] at e
    exact absurd e (significant_ne_nil h)
  · rfl

/-- The indentation that was added is taken away again. -/
theorem stripLine_indented (k n : Nat) (line : List Char) :
    stripLine (k + n) (List.replicate k ' ' ++ line) = stripLine n line := by
  unfold stripLine
  rw [indentOf_indented, Nat.add_min_add_left, List.drop_append, List.length_replicate,
    Nat.add_sub_cancel_left, List.drop_eq_nil_of_le (by simp), List.nil_append]

theorem newline_not_mem_indented {k : Nat} {body : List (List Char)}
    (apart : ∀ line ∈ body, '\n' ∉ line) : ∀ line ∈ indented k body, '\n' ∉ line := by
  intro line hline
  obtain ⟨line, h, rfl⟩ := List.mem_map.1 hline
  intro hmem
  rcases List.mem_append.1 hmem with space | hmem
  · exact absurd (List.eq_of_mem_replicate space) (by decide)
  · exact apart line h hmem

/-- Further spaces in front of all lines of a text block, the last one included, leave its value as
it is.  The value is read from the lines as they are left when white space is stripped off in front
and behind, and nothing else. -/
theorem literalValue_indented {opening : List Char} {body : List (List Char)}
    (first : '\n' ∉ opening) (some_line : body ≠ []) (apart : ∀ line ∈ body, '\n' ∉ line)
    (k : Nat) :
    literalValue (written opening (indented k body)) = literalValue (written opening body) ∧
    ∃ kept, literalValue (written opening body) = decode (List.intercalate ['\n'] kept) ∧
      List.Forall₂ Trims body kept := by
  have some_indented : indented k body ≠ [] := mt List.map_eq_nil_iff.1 some_line
  -- every line gains what the common indentation gains, so the strip takes it off again
  have stripped : (indented k body).map (stripLine (commonIndent (indented k body))) =
      body.map (stripLine (commonIndent body)) := by
    rw [commonIndent_indented k some_line, indented, List.map_map]
    exact List.map_congr_left fun line _ => stripLine_indented k _ line
  rw [literalValue_written first some_line apart,
    literalValue_written first some_indented (newline_not_mem_indented apart), stripped]
  refine ⟨rfl, _, rfl, ?_⟩
  rw [List.forall₂_map_right_iff, List.forall₂_same]
  exact fun line _ => trims_stripLine _ line

/-- A line that goes on, a blank one, one with an ideographic space, and that of the quotes. -/
theorem literalValue_indented_mixed :
    let body := ["   A\\", "\t", "\u3000 B \\s ", "  "].map String.toList
    '\n' ∉ [' '] ∧ body ≠ [] ∧ (∀ line ∈ body, '\n' ∉ line) ∧
      literalValue (written [' '] (indented 3 body)) = " A\nB  \n".toList := by
  intro body
  have first : '\n' ∉ [' '] := by decide
  have some_line : body ≠ [] := List.cons_ne_nil _ _
  have apart : ∀ line ∈ body, '\n' ∉ line := by decide
  have same := (literalValue_indented first some_line apart 3).1
  exact ⟨first, some_line, apart, same.trans (by decide +kernel)⟩

/-! ### Line ends -/

/-- The text with a carriage return in front of every line end. -/
def withReturns (s : List Char) : List Char :=
  s.flatMap fun c => if c = '\n' then ['\r', '\n'] else [c]

/-- The lines with a carriage return behind each but the last. -/
def returned : List (List Char) → List (List Char)
  | [] => []
  | [last] => [last]
  | line :: rest => (line ++ ['\r']) :: returned rest

theorem withReturns_newline (s : List Char) :
    withReturns ('\n' :: s) = '\r' :: '\n' :: withReturns s := rfl

theorem withReturns_cons {c : Char} (h : c ≠ '\n') (s : List Char) :
    withReturns (c :: s) = c :: withReturns s := by
  unfold withReturns
  rw [List.flatMap_cons, if_neg h]
  rfl

theorem returned_cons (line : List Char) {rest : List (List Char)} (h : rest ≠ []) :
    returned (line :: rest) = (line ++ ['\r']) :: returned rest := by
  obtain ⟨second, rest, rfl⟩ := List.exists_cons_of_ne_nil h
  rw [returned]
  exact h

/-- The lines are the same, each but the last with a carriage return at its end. -/
theorem splitOn_withReturns (s : List Char) :
    Text.splitOn '\n' (withReturns s) = returned (Text.splitOn '\n' s) := by
  induction s with
  | nil => rfl
  | cons c s ih =>
    by_cases h : c = '\n'
    · subst h
      have cut : Text.splitOn '\n' ('\n' :: withReturns s) =
          [] :: Text.splitOn '\n' (withReturns s) := Text.splitOn_cons_self _
      rw [withReturns_newline, Text.splitOn_cons_of_ne (by decide) cut, Text.splitOn_cons_self,
        returned_cons _ (Text.splitOn_ne_nil '\n' s), ih]
      rfl
    · obtain ⟨line, rest, hs⟩ := List.exists_cons_of_ne_nil (Text.splitOn_ne_nil '\n' s)
      rw [hs] at ih
      rw [withReturns_cons h, Text.splitOn_cons_of_ne h hs]
      -- the line that `c` begins is the last one, or has its carriage return
      cases rest with
      | nil => exact Text.splitOn_cons_of_ne h ih
      | cons second rest => exact Text.splitOn_cons_of_ne h ih

theorem dropWhile_withReturns (s : List Char) :
    (withReturns s).dropWhile (· ≠ '\n') =
      match s.dropWhile (· ≠ '\n') with
      | [] => []
      | _ :: body => '\n' :: withReturns body := by
  induction s with
  | nil => rfl
  | cons c s ih =>
    by_cases h : c = '\n'
    · subst h
      rfl
    · have passed (s : List Char) : (c :: s).dropWhile (· ≠ '\n') = s.dropWhile (· ≠ '\n') :=
        List.dropWhile_cons_of_pos (decide_eq_true h)
      rw [withReturns_cons h, passed, passed, ih]

/-- The lines of the body are the same but for the carriage returns. -/
theorem lines_withReturns (block : List Char) :
    lines (withReturns block) = returned (lines block) := by
  unfold lines
  rw [dropWhile_withReturns]
  rcases block.dropWhile (· ≠ '\n') with - | ⟨c, body⟩
  · exact splitOn_withReturns block
  · exact splitOn_withReturns body

/-- A blank character behind a line that shows something does not count for its indentation. -/
theorem indentOf_concat {line : List Char} (shows : ¬ line.all isBlank = true) (c : Char) :
    indentOf (line ++ [c]) = indentOf line := by
  have part : (line.takeWhile isBlank).length ≠ line.length := by
    intro all
    apply shows
    rw [← (List.takeWhile_prefix isBlank).eq_of_length all]
    exact List.all_eq_true.2 fun _ => List.mem_takeWhile_imp
  unfold indentOf
  rw [List.takeWhile_append, if_neg part]

/-- A blank character at the end of a line makes no difference to what is left of it. -/
theorem stripLine_concat (n : Nat) (line : List Char) {c : Char} (blank : isBlank c = true) :
    stripLine n (line ++ [c]) = stripLine n line := by
  unfold stripLine
  by_cases shows : line.all isBlank = true
  · -- nothing is left of either line
    have shows' : (line ++ [c]).all isBlank = true := by
      rw [List.all_append, shows, List.all_cons, blank]
      rfl
    have none {s : List Char} (h : s.all isBlank = true) (m : Nat) :
        Text.trimEnd (s.drop m) = [] :=
      Text.trimEnd_eq_nil (List.all_eq_true.2 fun x hx =>
        List.all_eq_true.1 h x (List.mem_of_mem_drop hx))
    rw [none shows, none shows']
  · have short : min n (indentOf line) ≤ line.length :=
      Nat.le_trans (Nat.min_le_right _ _) (indentOf_le_length line)
    rw [indentOf_concat shows, List.drop_append_of_le_length short, Text.trimEnd_concat blank]

theorem isBlank_return : isBlank '\r' = true := rfl

theorem all_isBlank_return (line : List Char) :
    (line ++ ['\r']).all isBlank = line.all isBlank := by
  rw [List.all_append, List.all_cons, isBlank_return, List.all_nil, Bool.and_true, Bool.and_true]

/-- The same lines are significant, and with the same indentation. -/
theorem map_indentOf_significant_returned (body : List (List Char)) :
    (significant (returned body)).map indentOf = (significant body).map indentOf := by
  induction body with
  | nil => rfl
  | cons line rest ih =>
    cases rest with
    | nil => rfl
    | cons second rest =>
      have some_line : returned (second :: rest) ≠ [] := by
        cases rest <;> exact List.cons_ne_nil _ _
      rw [returned_cons _ (List.cons_ne_nil _ _), significant_cons _ some_line,
        significant_cons _ (List.cons_ne_nil _ _), all_isBlank_return]
      -- a return is blank: it makes no line significant and stands behind the indentation
      split
      case isTrue => exact ih
      case isFalse shows => rw [List.map_cons, List.map_cons, ih, indentOf_concat shows]

/-- The common indentation does not depend on carriage returns. -/
theorem commonIndent_returned (body : List (List Char)) :
    commonIndent (returned body) = commonIndent body := by
  unfold commonIndent
  rw [map_indentOf_significant_returned]

theorem map_stripLine_returned (n : Nat) (body : List (List Char)) :
    (returned body).map (stripLine n) = body.map (stripLine n) := by
  induction body with
  | nil => rfl
  | cons line rest ih =>
    cases rest with
    | nil => rfl
    | cons second rest =>
      rw [returned_cons _ (List.cons_ne_nil _ _), List.map_cons, List.map_cons, ih,
        stripLine_concat n line isBlank_return]

/-- A text block has the same value whether its lines end with a line feed, or with a carriage
return and a line feed. -/
theorem literalValue_withReturns (block : List Char) :
    literalValue (withReturns (quoted block)) = literalValue (quoted block) := by
  have outside : withReturns (quoted block) = quoted (withReturns block) := by
    unfold quoted withReturns
    rw [List.flatMap_append, List.flatMap_append]
    rfl
  rw [outside, literalValue_quoted, literalValue_quoted]
  unfold strip
  rw [lines_withReturns, commonIndent_returned, map_stripLine_returned]

end TextBlock

end Source

end RouteRegistry
