/-
RouteRegistry/Proofs/RoutesClass/ClassText.lean

The class inside the generated text.

A namespace stands in front of the class and can be any text, even one that looks
like a class.  The class is what stands behind the last line that opens one
(`classText`).  No line of the class is like that one (`head?_bodyLine`), so these
are the lines that were written for it (`linesOf_classText`), and the readers
find in them what they find in a class without a namespace (`constants_classText`,
`elements_classText`, `puts_classText`).
-/
import RouteRegistry.Proofs.RoutesClass.Reading

namespace RouteRegistry.RoutesClass

/-- The lines behind the last one that opens the class. -/
def classLines (text : String) : List (List Char) :=
  ((linesOf text).reverse.takeWhile (· ≠ heading.toList)).reverse

/-- The text of the class. -/
def classText (text : String) : String :=
  String.ofList (List.intercalate ['\n'] (classLines text))

/-- The string constants that the text declares in front of the list. -/
def constantsBeforeList (text : String) : List String :=
  (((linesOf text).takeWhile fun line => !Lead.list.text.toList.isPrefixOf line).filterMap
    constant?).map Prod.fst

/-! ### Lines of the class -/

/-- The lines that a class has whatever its table is, but for those that begin a field. -/
def plainLines : List String :=
  ["", "    private Routes() \x7b", "    \x7d", "    );", "    static \x7b",
    "        java.util.Map<String, String> routeTypes = new java.util.LinkedHashMap<>();",
    "        RouteTypeMap = java.util.Collections.unmodifiableMap(routeTypes);", "\x7d"]

/-- The lines that begin the list and the map. -/
def memberLines : List String :=
  ["    public static final java.util.List<String> AllRoutes = java.util.List.of();",
    "    public static final java.util.List<String> AllRoutes = java.util.List.of(",
    "    public static final java.util.Map<String, String> RouteTypeMap;"]

theorem newline_not_mem_empty : '\n' ∉ "".toList := by decide

/-- No fixed line of the body begins like a package declaration. -/
theorem head?_fixedBodyLine :
    ∀ line ∈ plainLines ++ memberLines, line.toList.head? ≠ some 'p' := by
  simp only [plainLines, memberLines, List.cons_append, List.nil_append, List.forall_mem_cons]
  repeat rw [String.toList_ofList]
  decide

/-- The kinds of lines in a class. -/
theorem mem_bodyLines {t : RouteTable} {line : String} (hline : line ∈ bodyLines t) :
    line ∈ plainLines ++ memberLines ∨ line ∈ t.names.map constantLine ∨
      line ∈ elementLines t.names ∨ line ∈ t.typed.map fun e => putLine e.1 e.2 := by
  have list : line ∈ listLines t.names →
      line ∈ plainLines ++ memberLines ∨ line ∈ elementLines t.names := by
    intro h
    unfold listLines at h
    split at h
    · exact .inl (by rw [List.mem_singleton.1 h]; decide)
    rcases List.mem_append.1 h with h | h
    · rcases List.mem_cons.1 h with rfl | h
      · exact .inl (by decide)
      · exact .inr h
    · exact .inl (by rw [List.mem_singleton.1 h]; decide)
  have fixed {ls : List String} (h : ∀ l ∈ ls, l ∈ plainLines ++ memberLines) (hline : line ∈ ls) :
      line ∈ plainLines ++ memberLines := h line hline
  unfold bodyLines constantsPart mapPart at hline
  simp only [List.mem_append] at hline
  -- in the order of the class: constructor, gap, constants, gap, list, map, entries, end
  rcases hline with (((h | h) | h) | h) | h | (h | h) | h
  · exact .inl (fixed (by decide) h)
  · exact .inl (fixed (by split <;> decide) h)
  · exact .inr (.inl h)
  · exact .inl (fixed (by decide) h)
  · exact (list h).imp_right fun h => .inr (.inl h)
  · exact .inl (fixed (by decide) h)
  · exact .inr (.inr (.inr h))
  · exact .inl (fixed (by decide) h)

/-- In the class no line begins as the one that opens it. -/
theorem head?_bodyLine {t : RouteTable} {line : String} (hline : line ∈ bodyLines t) :
    line.toList.head? ≠ some 'p' := by
  -- the fixed lines are looked through one by one; a line that shows a name is indented
  have indented (s : List Char) : (' ' :: s).head? ≠ some 'p' := by
    rw [List.head?_cons]
    decide
  rcases mem_bodyLines hline with h | h | h | h
  · exact head?_fixedBodyLine line h
  · obtain ⟨route, -, rfl⟩ := List.mem_map.1 h
    rw [toList_constantLine, Lead.text, String.toList_ofList]
    exact indented _
  · obtain ⟨route, -, rfl | rfl⟩ := mem_elementLines h
    all_goals
      simp only [String.toList_append]
      rw [String.toList_ofList]
      exact indented _
  · obtain ⟨e, -, rfl⟩ := List.mem_map.1 h
    rw [toList_putLine, Lead.text, String.toList_ofList]
    exact indented _

section

variable {t : RouteTable} (hnames : ∀ name ∈ t.names, RouteName.Valid reserved name)

include hnames

/-- No line of the body has a line break in it, whatever the names and types are. -/
theorem newline_not_mem_bodyLine : ∀ line ∈ bodyLines t, '\n' ∉ line.toList := by
  intro line hline
  refine newline_not_mem_lines newline_not_mem_empty hnames line ?_
  rw [lines_eq]
  exact List.mem_append_right _ (List.mem_cons_of_mem heading hline)

/-- Below its heading the class has just the lines that were written. -/
theorem linesOf_classText (space : String) :
    linesOf (classText (render space t)) = (bodyLines t ++ [""]).map String.toList := by
  -- whatever lines the namespace adds, they are in front of the line that opens the class
  have cut : linesOf (render space t) =
      ((headLines space).flatMap fun l => Text.splitOn '\n' l.toList) ++
        heading.toList :: (bodyLines t ++ [""]).map String.toList := by
    unfold render
    rw [linesOf_unlines_eq, lines_eq, List.flatMap_append, List.flatMap_cons,
      flatMap_splitOn (newline_not_mem_bodyLine hnames),
      Text.splitOn_of_not_mem (newline_not_mem_fixedLine heading (by decide)), List.map_append,
      List.append_assoc, List.append_assoc]
    rfl
  -- so from the end, that line is met before all that look like it
  have once : heading.toList ∉ ((bodyLines t ++ [""]).map String.toList).reverse := by
    intro h
    obtain ⟨line, hline, same⟩ := List.mem_map.1 (List.mem_reverse.1 h)
    have begins : line.toList.head? = some 'p' := by
      rw [same]
      decide
    rcases List.mem_append.1 hline with h | h
    · exact head?_bodyLine h begins
    · rw [List.mem_singleton.1 h] at begins
      cases begins
  have lines : classLines (render space t) = (bodyLines t ++ [""]).map String.toList := by
    unfold classLines
    rw [cut, List.reverse_append, List.reverse_cons, List.append_assoc, List.singleton_append,
      Text.takeWhile_ne once, List.reverse_reverse]
  unfold classText
  rw [lines]
  unfold linesOf
  rw [String.toList_ofList]
  refine Text.splitOn_intercalate (by simp) fun part hpart => ?_
  obtain ⟨line, hline, rfl⟩ := List.mem_map.1 hpart
  rcases List.mem_append.1 hline with h | h
  · exact newline_not_mem_bodyLine hnames line h
  · rw [List.mem_singleton.1 h]
    exact newline_not_mem_empty

/-- A class without a namespace has two lines in front of the line that opens it. -/
theorem linesOf_render_eq (space : String) :
    linesOf (render "" t) =
      (["// <auto-generated/>", "", heading].map String.toList) ++
        linesOf (classText (render space t)) := by
  rw [linesOf_render newline_not_mem_empty hnames, linesOf_classText hnames, lines_eq,
    ← List.map_append, List.append_assoc]
  rfl

/-- A reader with a lead of its own reads in the class what it reads without a namespace. -/
theorem filterMap_classText {β : Type} {a : Lead} {read : List Char → Option β}
    (guards : a.Guards read) (h : a ≠ .list) (space : String) :
    (linesOf (classText (render space t))).filterMap read =
      (linesOf (render "" t)).filterMap read := by
  have silent : ∀ line ∈ ["// <auto-generated/>", "", heading], read line.toList = none := by
    intro line hline
    refine guards _ (Lead.not_prefix_fixedLine h line ?_)
    revert line
    decide
  have skipped : (["// <auto-generated/>", "", heading].map String.toList).filterMap read = [] := by
    rw [List.filterMap_map]
    exact List.filterMap_eq_nil_iff.2 silent
  rw [linesOf_render_eq hnames space, List.filterMap_append, skipped, List.nil_append]

/-- The constants of the class are the routes. -/
theorem constants_classText (space : String) :
    constants (classText (render space t)) = t.names.map fun name => (name, name) := by
  rw [← constants_render newline_not_mem_empty hnames]
  exact filterMap_classText hnames guards_constant? (by decide) space

/-- The entries of the map are the routes with a type. -/
theorem puts_classText (space : String) : puts (classText (render space t)) = t.typed := by
  rw [← puts_render newline_not_mem_empty hnames]
  exact filterMap_classText hnames guards_put? (by decide) space

/-- The elements of the list are the routes. -/
theorem elements_classText (space : String) : elements (classText (render space t)) = t.names := by
  have skipped : ∀ line ∈ ["// <auto-generated/>", "", heading].map String.toList,
      (!Lead.list.text.toList.isPrefixOf line) = true := by
    intro line hline
    obtain ⟨l, hl, rfl⟩ := List.mem_map.1 hline
    rw [Bool.not_eq_true', ← Bool.not_eq_true, List.isPrefixOf_iff_prefix]
    refine Lead.list.not_prefix_openingLine l ?_
    revert l
    decide
  rw [← elements_render newline_not_mem_empty hnames]
  unfold elements
  dsimp only
  rw [linesOf_render_eq hnames space, List.dropWhile_append_of_pos skipped]

/-- The constants stand in front of the list that uses them. -/
theorem constantsBeforeList_classText (space : String) :
    constantsBeforeList (classText (render space t)) = t.names := by
  have before : ∀ line ∈ (constantsPart t).map String.toList,
      (!Lead.list.text.toList.isPrefixOf line) = true := by
    intro line hline
    obtain ⟨l, hl, rfl⟩ := List.mem_map.1 hline
    rw [Bool.not_eq_true', ← Bool.not_eq_true, List.isPrefixOf_iff_prefix]
    have inFront : l ∈ headLines "" ++ heading :: constantsPart t :=
      List.mem_append_right _ (List.mem_cons_of_mem heading hl)
    exact not_prefix_opening inFront
  obtain ⟨inner, rest, -, list, -⟩ := exists_list hnames
  -- the list's opening line is the first with its lead, so it is where the reading stops
  have front (lines : List (List Char)) :
      ((constantsPart t).map String.toList ++
          ((listLines t.names).map String.toList ++ lines)).takeWhile
        (fun line => !Lead.list.text.toList.isPrefixOf line) =
      (constantsPart t).map String.toList := by
    rw [List.takeWhile_append_of_pos before, list, List.cons_append, List.takeWhile_cons_of_neg,
      List.append_nil]
    rw [List.isPrefixOf_iff_prefix.2 (List.prefix_append _ inner)]
    exact Bool.false_ne_true
  have fixed {ls : List String} (h : ∀ line ∈ ls, line ∈ fixedLines) :
      ls.filterMap (constant? ∘ String.toList) = [] :=
    filterMap_eq_nil guards_constant? fun line hline =>
      Lead.not_prefix_fixedLine (by decide) line (h line hline)
  have own : ∀ name ∈ t.names, constant? (constantLine name).toList = some (name, name) :=
    fun name h => constant?_constantLine ((hnames name h).not_mem (by decide))
  unfold constantsBeforeList
  rw [linesOf_classText hnames, bodyLines, List.append_assoc, List.append_assoc, List.map_append,
    List.map_append, front, List.filterMap_map]
  unfold constantsPart
  rw [List.filterMap_append, List.filterMap_append, List.filterMap_append, filterMap_eq_map own,
    fixed (by decide), fixed (by split <;> decide), fixed (by decide), List.append_nil,
    List.nil_append, List.nil_append, List.map_map]
  exact List.map_id' _

end

end RouteRegistry.RoutesClass
