/-
RouteRegistry/Proofs/Path/Steps.lean

The steps of a path, its components, and how both come apart.

A path has three readings: its `components`, by which paths are compared, its
`steps`, by which they are walked, and the steps of its `untrailed` text, by
which directories are made.  They differ in steps that stay where they are, and
in the separator at the end of the text, which `Path.stem` leaves aside.

* `Path.steps_join` and `Path.fileName?_ofNames`: what a join adds, and the last
  of some names.
* `Disk.untrailed_eq` and `Path.name_mem_stem`: the three readings against each
  other.
* `Path.stem_ofComponents`: the path of some components reads back as these, and
  so the paths above a path have no names of their own
  (`Disk.name_mem_of_mem_chain`).
-/
import Mathlib.Data.List.DropRight
import RouteRegistry.Disk.Change
import RouteRegistry.Proofs.Text.Splitting

namespace RouteRegistry

/-! ### Pieces and what they stand for -/

namespace Path

theorem stepOf?_of_componentOf? {piece : List Char} {c : Component}
    (h : componentOf? piece = some c) : stepOf? piece = some c := by
  have hne : piece ≠ ['.'] := by
    rintro rfl
    cases h
  rw [stepOf?, if_neg hne, h]

/-- The component is written as one piece. -/
structure IsPiece (c : Component) : Prop where
  plain : '/' ∉ (componentText c).toList
  step : stepOf? (componentText c).toList = some c

theorem isPiece_here : IsPiece .here := ⟨by decide, rfl⟩

theorem IsPiece.text_ne_nil {c : Component} (h : IsPiece c) : (componentText c).toList ≠ [] := by
  intro e
  have step := h.step
  rw [e] at step
  cases step

theorem isPiece_of_componentOf? {piece : List Char} {c : Component} (hp : '/' ∉ piece)
    (h : componentOf? piece = some c) : IsPiece c := by
  have text : (componentText c).toList = piece := by
    unfold componentOf? at h
    split at h
    · cases h
    split at h
    · cases h
    split at h
    case isTrue e =>
      obtain rfl := Option.some.inj h
      exact e.symm
    · obtain rfl := Option.some.inj h
      exact String.toList_ofList
  exact ⟨text ▸ hp, text ▸ stepOf?_of_componentOf? h⟩

/-- All components are pieces, but for the root that an absolute path begins with. -/
theorem pieces_components (p : Path) :
    ∃ rest, (∀ c ∈ rest, IsPiece c) ∧ (p.components = rest ∨ p.components = .root :: rest) := by
  have pieces : ∀ c ∈ (Text.splitOn '/' p.text.toList).filterMap componentOf?, IsPiece c := by
    intro c hc
    obtain ⟨piece, hmem, hpiece⟩ := List.mem_filterMap.1 hc
    exact isPiece_of_componentOf? (Text.not_mem_of_mem_splitOn hmem) hpiece
  unfold components
  dsimp only
  split
  · exact ⟨_, pieces, .inr rfl⟩
  split
  · refine ⟨_, ?_, .inl rfl⟩
    intro c hc
    rcases List.mem_cons.1 hc with rfl | hc
    · exact isPiece_here
    · exact pieces c hc
  · exact ⟨_, pieces, .inl rfl⟩

/-! ### Steps without the separator at the end -/

/-- The steps without the one that a separator at the end counts for. -/
def stem (p : Path) : List Component :=
  (if p.isAbsolute then [.root] else []) ++
    (Text.splitOn '/' p.text.toList).filterMap stepOf?

/-- A slash at the end is one more step, to where the walk is already. -/
theorem steps_eq (p : Path) :
    p.steps = p.stem ++
      if (Text.splitOn '/' p.text.toList).getLast? = some [] then [.here] else [] :=
  rfl

theorem steps_eq_stem_or (p : Path) : p.steps = p.stem ∨ p.steps = p.stem ++ [.here] := by
  rw [steps_eq]
  split
  · exact .inr rfl
  · exact .inl (List.append_nil _)

/-- What stands behind a separator adds its own steps to those in front of it. -/
theorem steps_of_toList {p q : Path} {t : List Char}
    (h : p.text.toList = t ++ '/' :: q.text.toList) :
    p.steps = (if (t ++ ['/']).head? = some '/' then [.root] else []) ++
      (Text.splitOn '/' t).filterMap stepOf? ++
      ((Text.splitOn '/' q.text.toList).filterMap stepOf? ++
        if (Text.splitOn '/' q.text.toList).getLast? = some [] then [.here] else []) := by
  have absolute : p.isAbsolute = decide ((t ++ ['/']).head? = some '/') := by
    unfold isAbsolute
    rw [h]
    cases t <;> rfl
  -- whether a trailing slash adds a step is up to `q` alone
  have last : (Text.splitOn '/' t ++ Text.splitOn '/' q.text.toList).getLast? =
      (Text.splitOn '/' q.text.toList).getLast? :=
    List.getLast?_append_of_ne_nil _ (Text.splitOn_ne_nil '/' _)
  unfold steps
  dsimp only
  rw [absolute, h, Text.splitOn_append, last, List.filterMap_append]
  simp only [decide_eq_true_eq, List.append_assoc]

/-- A relative path adds its steps to those of the path it is joined to. -/
theorem steps_join (p : Path) {q : Path} (hrel : q.isAbsolute = false) :
    (p.join q).steps = p.stem ++ q.steps := by
  have relative : q.steps = (Text.splitOn '/' q.text.toList).filterMap stepOf? ++
      if (Text.splitOn '/' q.text.toList).getLast? = some [] then [.here] else [] := by
    unfold steps
    rw [hrel]
    rfl
  unfold join
  rw [if_neg (by rw [hrel]; exact Bool.false_ne_true)]
  by_cases empty : p.text = ""
  · have stem : p.stem = [] := by
      unfold stem isAbsolute
      rw [empty]; rfl
    rw [if_pos (.inl empty), empty, String.empty_append, stem]
    rfl
  have nonempty : p.text.toList ≠ [] := fun e => empty (String.toList_eq_nil_iff.1 e)
  -- the join puts a slash between the two only where none ends `p`; the steps come out the same
  by_cases slash : p.text.toList.getLast? = some '/'
  · obtain ⟨t, ht⟩ := List.getLast?_eq_some_iff.1 slash
    have text : (Path.mk (p.text ++ q.text)).text.toList = t ++ '/' :: q.text.toList := by
      show (p.text ++ q.text).toList = _
      rw [String.toList_append, ht, List.append_assoc]; rfl
    have stem : p.stem = (if (t ++ ['/']).head? = some '/' then [.root] else []) ++
        (Text.splitOn '/' t).filterMap stepOf? := by
      unfold stem isAbsolute
      rw [ht, Text.splitOn_append, List.filterMap_append]
      simp only [decide_eq_true_eq]
      rw [← List.append_assoc]
      exact List.append_nil _
    rw [if_pos (.inr slash), steps_of_toList text, stem, relative]
  · have text : (Path.mk (p.text ++ "/" ++ q.text)).text.toList =
        p.text.toList ++ '/' :: q.text.toList := by
      show (p.text ++ "/" ++ q.text).toList = _
      rw [String.toList_append, String.toList_append, List.append_assoc]; rfl
    have stem : p.stem = (if (p.text.toList ++ ['/']).head? = some '/' then [.root] else []) ++
        (Text.splitOn '/' p.text.toList).filterMap stepOf? := by
      unfold stem isAbsolute
      rw [List.head?_append_of_ne_nil _ nonempty]
      simp only [decide_eq_true_eq]
    rw [if_neg (fun h => h.elim empty slash), steps_of_toList text, stem, relative]

/-- Steps and components have the same names. -/
theorem name_mem_stem {p : Path} {n : String} : .name n ∈ p.stem ↔ .name n ∈ p.components := by
  -- steps and components differ in `.` and the root only, which are not names
  have pieces : .name n ∈ (Text.splitOn '/' p.text.toList).filterMap stepOf? ↔
      .name n ∈ (Text.splitOn '/' p.text.toList).filterMap componentOf? := by
    simp only [List.mem_filterMap]
    refine exists_congr fun piece => and_congr_right fun _ => ⟨fun h => ?_, stepOf?_of_componentOf?⟩
    unfold stepOf? at h
    split at h
    · cases h
    · exact h
  unfold stem components
  dsimp only
  rw [List.mem_append, List.mem_append, pieces]
  refine or_congr ⟨fun h => ?_, fun h => ?_⟩ Iff.rfl
  · split at h <;> simp at h
  · split at h
    · simp at h
    · split at h <;> simp at h

/-! ### Paths of components -/

theorem toList_ofNames (names : List String) :
    (ofNames names).text.toList = List.intercalate ['/'] (names.map String.toList) := by
  unfold ofNames Text.joinWith
  exact String.toList_ofList

/-- The path of some components reads back as these. -/
theorem stem_ofComponents {rest : List Component} (h : ∀ c ∈ rest, IsPiece c) :
    (rest ≠ [] → (ofComponents rest).stem = rest) ∧
    (ofComponents (.root :: rest)).stem = .root :: rest := by
  have parts : ∀ part ∈ (rest.map componentText).map String.toList, '/' ∉ part := by
    intro part hpart
    rw [List.map_map] at hpart
    obtain ⟨c, hc, rfl⟩ := List.mem_map.1 hpart
    exact (h c hc).plain
  -- each piece reads back as its own component, so what is left is the joining slash
  have read : ((rest.map componentText).map String.toList).filterMap stepOf? = rest := by
    rw [List.map_map, List.filterMap_map]
    calc rest.filterMap (stepOf? ∘ String.toList ∘ componentText)
        = rest.filterMap some := List.filterMap_congr fun c hc => (h c hc).step
      _ = rest := List.filterMap_some
  constructor
  · intro hne
    obtain ⟨c, cs, rfl⟩ := List.exists_cons_of_ne_nil hne
    have hc := h c (List.mem_cons_self ..)
    have path : ofComponents (c :: cs) = ofNames ((c :: cs).map componentText) := by
      unfold ofComponents
      split
      case h_1 e =>
        obtain ⟨rfl, -⟩ := List.cons.inj e
        exact absurd rfl hc.text_ne_nil
      case h_2 => rfl
    have relative : (ofNames ((c :: cs).map componentText)).isAbsolute = false := by
      unfold isAbsolute
      rw [toList_ofNames]
      obtain ⟨first, text, e⟩ := List.exists_cons_of_ne_nil hc.text_ne_nil
      have plain : first ≠ '/' := fun e' => hc.plain (by rw [e, e']; exact List.mem_cons_self ..)
      cases cs <;> simp [e, plain]
    unfold stem
    rw [path, relative, toList_ofNames, Text.splitOn_intercalate (by simp) parts, read]
    rfl
  · cases rest with
    | nil => rfl
    | cons c cs =>
      have absolute : (ofNames ("" :: (c :: cs).map componentText)).isAbsolute = true := by
        unfold isAbsolute
        rw [toList_ofNames]
        rfl
      have path : ofComponents (.root :: c :: cs) =
          ofNames ("" :: (c :: cs).map componentText) := rfl
      unfold stem
      rw [path, absolute, toList_ofNames, List.map_cons, Text.splitOn_intercalate (by simp)]
      · show [Component.root] ++ _ = _
        rw [List.filterMap_cons_none (by rfl), read]
        rfl
      · intro part hpart
        rcases List.mem_cons.1 hpart with rfl | hpart
        · exact List.not_mem_nil
        · exact parts part hpart

/-- The last of some names is the file name of their path, if it is written as one. -/
theorem fileName?_ofNames (names : List String) {n : String} (hn : '/' ∉ n.toList)
    (hc : componentOf? n.toList = some (.name n)) :
    (ofNames (names ++ [n])).fileName? = some n := by
  obtain ⟨front, text⟩ : ∃ front,
      Text.splitOn '/' (ofNames (names ++ [n])).text.toList = front ++ [n.toList] := by
    rw [toList_ofNames, List.map_append]
    rcases Text.intercalate_append_singleton '/' (names.map String.toList) n.toList with e | ⟨s, e⟩
    · exact ⟨[], by rw [List.map_singleton, e, Text.splitOn_of_not_mem hn]; rfl⟩
    · exact ⟨Text.splitOn '/' s, by
        rw [List.map_singleton, e, Text.splitOn_append, Text.splitOn_of_not_mem hn]⟩
  unfold fileName? components
  dsimp only
  rw [text, List.filterMap_append, List.filterMap_cons_some hc, ← List.append_assoc]
  simp

end Path

/-! ### Directories to be made -/

namespace Disk

open RouteRegistry.Path

/-- Unless the path is all separators, taking them off its end leaves its stem. -/
theorem untrailed_eq (p : Path) : untrailed p = p.stem ∨ untrailed p = [.here] := by
  let slash : Char → Bool := fun c => decide (c = '/')
  let kept := p.text.toList.rdropWhile slash
  have unfolded : untrailed p = Path.steps ⟨String.ofList kept⟩ := rfl
  obtain ⟨n, whole⟩ : ∃ n, p.text.toList = kept ++ List.replicate n '/' := by
    have taken : ∀ c ∈ p.text.toList.rtakeWhile slash, c = '/' := by
      intro c hc
      have h : slash c = true := List.mem_rtakeWhile_imp hc
      exact of_decide_eq_true h
    exact ⟨(p.text.toList.rtakeWhile slash).length,
      (List.eq_replicate_of_mem taken) ▸ List.rdropWhile_append_rtakeWhile.symm⟩
  by_cases hnil : kept = []
  · rw [unfolded, hnil]
    exact .inr rfl
  -- what is kept has no slash at its end, so its last piece is not empty
  have last : (Text.splitOn '/' kept).getLast? ≠ some [] := by
    intro h
    rcases Text.getLast?_of_splitOn h with e | e
    · exact hnil e
    · refine List.rdropWhile_last_not slash p.text.toList hnil ?_
      rw [List.getLast?_eq_some_getLast hnil] at e
      exact decide_eq_true (Option.some.inj e)
  refine .inl ?_
  rw [unfolded, steps_eq, String.toList_ofList, if_neg last, List.append_nil]
  unfold stem isAbsolute
  rw [String.toList_ofList, whole, Text.splitOn_append_replicate, List.filterMap_append,
    List.filterMap_replicate_of_none (by rfl), List.append_nil,
    List.head?_append_of_ne_nil _ hnil]

/-- The names in the paths above a path are names in that path. -/
theorem name_mem_of_mem_chain {p q : Path} (h : q ∈ chain p) {n : String}
    (hn : .name n ∈ q.components) : .name n ∈ p.components := by
  unfold chain at h
  rcases List.mem_cons.1 h with rfl | h
  · exact hn
  obtain ⟨k, hk, rfl⟩ := List.mem_map.1 h
  have bound : k < p.components.length - 1 := by simpa using hk
  refine List.mem_of_mem_take (i := k + 1) ?_
  rw [← name_mem_stem] at hn
  -- a member of the chain is a prefix of the components, which its steps show again
  obtain ⟨rest, pieces, e | e⟩ := pieces_components p
  · have left : rest.take (k + 1) ≠ [] := by
      rw [e] at bound
      intro h
      rcases List.take_eq_nil_iff.1 h with h | h
      · cases h
      · rw [h] at bound; exact absurd bound (Nat.not_lt_zero k)
    rw [e] at hn ⊢
    rwa [(stem_ofComponents fun c hc => pieces c (List.mem_of_mem_take hc)).1 left] at hn
  · rw [e, List.take_succ_cons] at hn ⊢
    rwa [(stem_ofComponents fun c hc => pieces c (List.mem_of_mem_take hc)).2] at hn

end Disk

end RouteRegistry
