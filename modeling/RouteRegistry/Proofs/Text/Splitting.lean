/-
RouteRegistry/Proofs/Text/Splitting.lean

A text split at a character, and put together again.

The pieces of a text do not have the separator in them
(`not_mem_of_mem_splitOn`), and pieces without it come back from the text that
they are joined to (`splitOn_intercalate`).  A joined text is its first part, and
then the separator and the next part over and over (`toList_joinWith_cons`).
-/
import RouteRegistry.Text.Blank

namespace RouteRegistry

namespace Text

variable {sep : Char}

/-- There is always a piece, if only an empty one. -/
theorem splitOn_ne_nil (sep : Char) (s : List Char) : splitOn sep s ≠ [] := by
  cases s with
  | nil => exact List.cons_ne_nil _ _
  | cons c cs =>
    unfold splitOn
    split
    · exact List.cons_ne_nil _ _
    · split <;> exact List.cons_ne_nil _ _

theorem splitOn_cons_self (s : List Char) : splitOn sep (sep :: s) = [] :: splitOn sep s := by
  rw [splitOn, if_pos rfl]

theorem splitOn_cons_of_ne {c : Char} (h : c ≠ sep) {s piece : List Char}
    {rest : List (List Char)} (hs : splitOn sep s = piece :: rest) :
    splitOn sep (c :: s) = (c :: piece) :: rest := by
  rw [splitOn, if_neg h, hs]

/-- A text is split at a separator by splitting what is before it and what is behind it. -/
theorem splitOn_append (a b : List Char) :
    splitOn sep (a ++ sep :: b) = splitOn sep a ++ splitOn sep b := by
  induction a with
  | nil => exact splitOn_cons_self b
  | cons c a ih =>
    by_cases h : c = sep
    · subst h
      rw [List.cons_append, splitOn_cons_self, splitOn_cons_self, ih]; rfl
    · obtain ⟨piece, rest, hs⟩ := List.exists_cons_of_ne_nil (splitOn_ne_nil sep a)
      rw [hs] at ih
      rw [List.cons_append, splitOn_cons_of_ne h ih, splitOn_cons_of_ne h hs]; rfl

theorem splitOn_of_not_mem {s : List Char} (h : sep ∉ s) : splitOn sep s = [s] := by
  induction s with
  | nil => rfl
  | cons c s ih =>
    have hc : c ≠ sep := fun e => h (e ▸ List.mem_cons_self ..)
    exact splitOn_cons_of_ne hc (ih fun hs => h (List.mem_cons_of_mem c hs))

/-- No piece has a separator in it. -/
theorem not_mem_of_mem_splitOn {s piece : List Char} (h : piece ∈ splitOn sep s) : sep ∉ piece := by
  induction s generalizing piece with
  | nil =>
    obtain rfl := List.mem_singleton.1 h
    exact List.not_mem_nil
  | cons c s ih =>
    by_cases hc : c = sep
    · subst hc
      rw [splitOn_cons_self] at h
      rcases List.mem_cons.1 h with rfl | h
      · exact List.not_mem_nil
      · exact ih h
    · obtain ⟨first, rest, hs⟩ := List.exists_cons_of_ne_nil (splitOn_ne_nil sep s)
      rw [splitOn_cons_of_ne hc hs] at h
      rw [hs] at ih
      rcases List.mem_cons.1 h with rfl | h
      · intro hmem
        rcases List.mem_cons.1 hmem with e | hmem
        · exact hc e.symm
        · exact ih (List.mem_cons_self ..) hmem
      · exact ih (List.mem_cons_of_mem first h)

/-- The last piece is empty only where the text ends with the separator, or is empty itself. -/
theorem getLast?_of_splitOn {s : List Char} (h : (splitOn sep s).getLast? = some []) :
    s = [] ∨ s.getLast? = some sep := by
  induction s with
  | nil => exact .inl rfl
  | cons c s ih =>
    refine .inr ?_
    obtain ⟨piece, rest, hs⟩ := List.exists_cons_of_ne_nil (splitOn_ne_nil sep s)
    -- an empty last piece has a separator in front of it, unless there is no text at all
    have tail : (splitOn sep s).getLast? = some [] → s ≠ [] ∨ c = sep →
        (c :: s).getLast? = some sep := by
      intro hlast hc
      rcases ih hlast with rfl | hend
      · obtain rfl := hc.resolve_left (fun hne => hne rfl)
        rfl
      · rw [List.getLast?_cons, hend]; rfl
    by_cases hc : c = sep
    · subst hc
      rw [splitOn_cons_self, hs, List.getLast?_cons_cons, ← hs] at h
      exact tail h (.inr rfl)
    · rw [splitOn_cons_of_ne hc hs] at h
      cases rest with
      | nil => exact absurd (Option.some.inj h) (List.cons_ne_nil _ _)
      | cons second rest =>
        rw [List.getLast?_cons_cons] at h
        refine tail (by rw [hs, List.getLast?_cons_cons, h]) (.inl ?_)
        rintro rfl
        exact absurd hs (by simp [splitOn])

/-- Separators at the end of a text add empty pieces. -/
theorem splitOn_append_replicate (s : List Char) (n : Nat) :
    splitOn sep (s ++ List.replicate n sep) = splitOn sep s ++ List.replicate n [] := by
  induction n with
  | zero => rw [List.replicate_zero, List.replicate_zero, List.append_nil, List.append_nil]
  | succ n ih =>
    rw [List.replicate_succ', ← List.append_assoc, splitOn_append, ih, List.append_assoc,
      List.replicate_succ']
    rfl

/-- Texts without the separator come back from between the separators that join them. -/
theorem splitOn_intercalate {parts : List (List Char)} (hne : parts ≠ [])
    (h : ∀ part ∈ parts, sep ∉ part) : splitOn sep (List.intercalate [sep] parts) = parts := by
  induction parts with
  | nil => exact absurd rfl hne
  | cons part rest ih =>
    have plain := splitOn_of_not_mem (h part (List.mem_cons_self ..))
    cases rest with
    | nil => rw [List.intercalate_singleton, plain]
    | cons second rest =>
      rw [List.intercalate_cons_cons, List.append_assoc, List.singleton_append, splitOn_append,
        plain, ih (List.cons_ne_nil _ _) fun x hx => h x (List.mem_cons_of_mem part hx)]
      rfl

/-- What is joined last stands behind a separator, unless it is alone. -/
theorem intercalate_append_singleton (sep : Char) (parts : List (List Char)) (last : List Char) :
    List.intercalate [sep] (parts ++ [last]) = last ∨
    ∃ s, List.intercalate [sep] (parts ++ [last]) = s ++ sep :: last := by
  induction parts with
  | nil => exact .inl List.intercalate_singleton
  | cons part parts ih =>
    refine .inr ?_
    obtain ⟨second, rest, e⟩ := List.exists_cons_of_ne_nil (List.concat_ne_nil last parts)
    rw [List.cons_append, e, List.intercalate_cons_cons, ← e]
    rcases ih with e | ⟨s, e⟩
    · exact ⟨part, by rw [e]; simp⟩
    · exact ⟨part ++ sep :: s, by rw [e]; simp⟩

/-! ### Texts joined by a text -/

theorem intersperse_cons {α : Type} (sep part : α) (rest : List α) :
    List.intersperse sep (part :: rest) = part :: rest.flatMap fun next => [sep, next] := by
  induction rest generalizing part with
  | nil => rfl
  | cons next rest ih =>
    rw [List.intersperse_cons_cons, ih next]
    rfl

/-- A joined text is its first part, and the others each behind a separator. -/
theorem toList_joinWith_cons (sep part : String) (rest : List String) :
    (joinWith sep (part :: rest)).toList =
      part.toList ++ rest.flatMap fun next => sep.toList ++ next.toList := by
  unfold joinWith
  rw [String.toList_ofList, List.map_cons, List.intercalate, intersperse_cons, List.flatten_cons,
    List.flatMap_map, ← List.flatMap_id', List.flatMap_assoc]
  simp only [List.flatMap_cons, List.flatMap_nil, List.append_nil]

/-- The last text is joined like the others. -/
theorem toList_joinWith_concat (sep : String) {parts : List String} (h : parts ≠ [])
    (last : String) :
    (joinWith sep (parts ++ [last])).toList =
      (joinWith sep parts).toList ++ (sep.toList ++ last.toList) := by
  obtain ⟨part, rest, rfl⟩ := List.exists_cons_of_ne_nil h
  rw [List.cons_append, toList_joinWith_cons, toList_joinWith_cons, List.flatMap_append,
    List.flatMap_singleton, List.append_assoc]

/-- A character that is neither in the texts nor between them is not in the joined text. -/
theorem not_mem_joinWith {sep : String} {parts : List String} {c : Char} (between : c ∉ sep.toList)
    (inside : ∀ part ∈ parts, c ∉ part.toList) : c ∉ (joinWith sep parts).toList := by
  cases parts with
  | nil => exact List.not_mem_nil
  | cons part rest =>
    obtain ⟨first, others⟩ := List.forall_mem_cons.1 inside
    rw [toList_joinWith_cons, List.mem_append, List.mem_flatMap]
    rintro (mem | ⟨next, hnext, mem⟩)
    · exact first mem
    · exact (List.mem_append.1 mem).elim between (others next hnext)

end Text

end RouteRegistry
