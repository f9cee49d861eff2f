/-
RouteRegistry/Proofs/RoutesClass/Reading.lean

The generated class, read back from its text.

No namespace, name or type breaks a line, so the lines that are read are those
that were written (`linesOf_render`), and each reader finds among them its own
(`namespaceOf_render`, `constants_render`, `elements_render`, `puts_render`).
Names and types are all that a table consists of (`RouteTable.entries_eq`).

Main result (`render_determines`): from the text of a class the readers give
back its names and its types, and so the text belongs to one namespace and one
table only.
-/
import RouteRegistry.Proofs.RoutesClass.Readers
import RouteRegistry.Proofs.Table.Entries

namespace RouteRegistry

namespace RoutesClass

/-! ### Reading a class back -/

/-- Without white space the elements stand one after the other with commas between them. -/
theorem squeeze_elementLines {names : List String}
    (plain : ∀ name ∈ names, Text.squeeze name.toList = name.toList) :
    Text.squeeze ((elementLines names).map String.toList).flatten =
      List.intercalate [','] (names.map String.toList) := by
  have indentation : Text.squeeze "        ".toList = [] := by
    rw [String.toList_ofList]
    rfl
  have comma : Text.squeeze ",".toList = [','] := by
    rw [String.toList_ofList]
    rfl
  induction names with
  | nil => rfl
  | cons route rest ih =>
    have first := plain route (List.mem_cons_self ..)
    cases rest with
    | nil =>
      show Text.squeeze (("        " ++ route).toList ++ []) = List.intercalate [','] [route.toList]
      rw [List.append_nil, String.toList_append, Text.squeeze_append, indentation, first,
        List.nil_append, List.intercalate_singleton]
    | cons second rest =>
      show Text.squeeze (("        " ++ route ++ ",").toList ++
        ((elementLines (second :: rest)).map String.toList).flatten) = _
      rw [String.toList_append, String.toList_append, Text.squeeze_append, Text.squeeze_append,
        Text.squeeze_append, indentation, first, comma,
        ih fun name h => plain name (List.mem_cons_of_mem route h), List.nil_append]
      exact List.intercalate_cons_cons.symm

section

variable {space : String} {t : RouteTable} (hspace : '\n' ∉ space.toList)
  (hnames : ∀ name ∈ t.names, RouteName.Valid reserved name)

include hspace hnames

/-- The lines of the text are the lines that were written. -/
theorem linesOf_render : linesOf (render space t) = (lines space t ++ [""]).map String.toList :=
  linesOf_unlines (newline_not_mem_lines hspace hnames)

/-- What a reader with a lead of its own picks out of a class. -/
theorem filterMap_linesOf {β : Type} {a : Lead} {read : List Char → Option β}
    (guards : a.Guards read) (h : a ≠ .list) :
    (linesOf (render space t)).filterMap read =
      (packageLines space).filterMap (read ∘ String.toList) ++
        (t.names.map constantLine).filterMap (read ∘ String.toList) ++
        (elementLines t.names).filterMap (read ∘ String.toList) ++
        (t.typed.map fun e => putLine e.1 e.2).filterMap (read ∘ String.toList) := by
  have silent : ∀ line ∈ fixedLines, (read ∘ String.toList) line = none :=
    fun line hline => guards _ (Lead.not_prefix_fixedLine h line hline)
  rw [linesOf_render hspace hnames, List.filterMap_map, List.filterMap_append,
    filterMap_lines silent, List.filterMap_cons_none (silent "" (by decide)),
    List.filterMap_nil, List.append_nil]

/-- The package is read back, the default one from its absence. -/
theorem namespaceOf_render : namespaceOf (render space t) = space := by
  have own : (packageLines space).filterMap (package? ∘ String.toList) =
      if space = "" then [] else [space] := by
    unfold packageLines
    split
    · rfl
    · exact List.filterMap_cons_some (package?_packageLine space)
  unfold namespaceOf
  rw [filterMap_linesOf hspace hnames guards_package? (by decide), own,
    filterMap_constantLines guards_package? (by decide),
    filterMap_elementLines guards_package? (by decide),
    filterMap_putLines guards_package? (by decide), List.append_nil, List.append_nil,
    List.append_nil]
  split
  case isTrue h => exact h.symm
  case isFalse => rfl

/-- The constants are the routes, each with its own name as its value. -/
theorem constants_render : constants (render space t) = t.names.map fun name => (name, name) := by
  have own : ∀ name ∈ t.names, constant? (constantLine name).toList = some (name, name) :=
    fun name h => constant?_constantLine ((hnames name h).not_mem (by decide))
  unfold constants
  rw [filterMap_linesOf hspace hnames guards_constant? (by decide),
    filterMap_packageLines guards_constant? (by decide), filterMap_eq_map own,
    filterMap_elementLines guards_constant? (by decide),
    filterMap_putLines guards_constant? (by decide), List.nil_append, List.append_nil,
    List.append_nil]

/-- The entries of the map are the routes with a type. -/
theorem puts_render : puts (render space t) = t.typed := by
  have own : ∀ e ∈ t.typed, put? (putLine e.1 e.2).toList = some (id e) :=
    fun e _ => put?_putLine e.1 e.2
  have lead : '.' ∈ Lead.put.text.toList := by
    simp only [Lead.text]
    rw [String.toList_ofList]
    decide
  -- the lead has a dot behind as many blanks, and an element has none
  have element : ∀ line ∈ elementLines t.names, ¬ Lead.put.text.toList <+: line.toList := by
    intro line hline h
    have name : ∀ route ∈ t.names, '.' ∉ route.toList :=
      fun route hroute => (hnames route hroute).not_mem (by decide)
    exact not_mem_elementLine (by decide) (by decide) name hline (h.mem lead)
  unfold puts
  rw [filterMap_linesOf hspace hnames guards_put? (by decide),
    filterMap_packageLines guards_put? (by decide), filterMap_constantLines guards_put? (by decide),
    filterMap_eq_nil guards_put? element, filterMap_eq_map own, List.nil_append, List.nil_append,
    List.nil_append, List.map_id]

omit hspace in
/-- The elements are read as the names, whatever blanks are around them. -/
theorem listed_elementLines :
    listed (((elementLines t.names).map String.toList).flatten ++ "    ".toList) = t.names := by
  have plain : ∀ name ∈ t.names, Text.squeeze name.toList = name.toList := by
    intro name h
    refine List.filter_eq_self.2 fun c hc => ?_
    rw [RouteName.isBlank_of_isPart ((hnames name h).isPart hc)]
    rfl
  have indentation : Text.squeeze "    ".toList = [] := by
    rw [String.toList_ofList]
    rfl
  unfold listed
  rw [Text.squeeze_append, squeeze_elementLines plain, indentation, List.append_nil]
  rcases e : t.names with - | ⟨first, rest⟩
  · rfl
  -- splitting at commas undoes the joining, since a name has none and is not empty
  have comma : ∀ part ∈ (first :: rest).map String.toList, ',' ∉ part := by
    intro part hpart
    obtain ⟨name, h, rfl⟩ := List.mem_map.1 hpart
    exact (hnames name (e ▸ h)).not_mem (by decide)
  have nonempty : ∀ part ∈ (first :: rest).map String.toList, decide (part ≠ []) = true := by
    intro part hpart
    obtain ⟨name, h, rfl⟩ := List.mem_map.1 hpart
    obtain ⟨c, cs, shape, -⟩ := (hnames name (e ▸ h)).grammar
    rw [shape]
    exact decide_eq_true (List.cons_ne_nil c cs)
  have some_name : (first :: rest).map String.toList ≠ [] := List.cons_ne_nil _ _
  rw [Text.splitOn_intercalate some_name comma, List.filter_eq_self.2 nonempty, List.map_map]
  exact (List.map_congr_left fun name _ => String.ofList_toList).trans (List.map_id' _)

omit hspace in
/-- Behind the lead of the list, up to the parenthesis that closes it, stand the names. -/
theorem exists_list :
    ∃ inner rest content,
      (listLines t.names).map String.toList = (Lead.list.text.toList ++ inner) :: rest ∧
      inner ++ rest.flatten = content ++ [')', ';'] ∧ ')' ∉ content ∧ listed content = t.names := by
  unfold listLines
  split
  -- the empty list closes on its own line, any other on a line behind its names
  case isTrue empty =>
    have whole : "    public static final java.util.List<String> AllRoutes = java.util.List.of();" =
        Lead.list.text ++ ");" := by decide
    have close : ");".toList = [')', ';'] := String.toList_ofList
    refine ⟨[')', ';'], [], [], ?_, rfl, List.not_mem_nil, empty ▸ rfl⟩
    rw [whole, List.map_singleton, String.toList_append, close]
  case isFalse =>
    refine ⟨[], (elementLines t.names).map String.toList ++ ["    );".toList],
      ((elementLines t.names).map String.toList).flatten ++ "    ".toList, ?_, ?_, ?_,
      listed_elementLines hnames⟩
    · rw [List.append_nil, List.cons_append, List.map_cons, List.map_append]
      rfl
    · rw [List.nil_append, List.flatten_append, List.append_assoc]
      have last : "    );" = "    " ++ ");" := by decide
      have close : ");".toList = [')', ';'] := String.toList_ofList
      rw [List.flatten_singleton, last, String.toList_append, close]
    · have name : ∀ route ∈ t.names, ')' ∉ route.toList :=
        fun route hroute => (hnames route hroute).not_mem (by decide)
      have gap : "    ".toList = List.replicate 4 ' ' := String.toList_ofList
      intro h
      rcases List.mem_append.1 h with h | h
      · obtain ⟨line, hline, hmem⟩ := List.mem_flatten.1 h
        obtain ⟨l, hl, rfl⟩ := List.mem_map.1 hline
        exact not_mem_elementLine (by decide) (by decide) name hl hmem
      · rw [gap] at h
        exact absurd (List.eq_of_mem_replicate h) (by decide)

/-- The elements of the list are the routes. -/
theorem elements_render : elements (render space t) = t.names := by
  have split : lines space t =
      (headLines space ++ heading :: constantsPart t) ++ (listLines t.names ++ mapPart t) := by
    rw [lines_eq, List.append_assoc]
    rfl
  obtain ⟨inner, rest, content, shape, closed, inside, names⟩ := exists_list hnames
  -- the reader stops at the first line of the list
  have skipped : ∀ line ∈ (headLines space ++ heading :: constantsPart t).map String.toList,
      (!Lead.list.text.toList.isPrefixOf line) = true := by
    intro line hline
    obtain ⟨l, hl, rfl⟩ := List.mem_map.1 hline
    rw [Bool.not_eq_true', ← Bool.not_eq_true, List.isPrefixOf_iff_prefix]
    exact not_prefix_opening hl
  have found (lines : List (List Char)) :
      ((Lead.list.text.toList ++ inner) :: lines).dropWhile
        (fun line => !Lead.list.text.toList.isPrefixOf line) =
      (Lead.list.text.toList ++ inner) :: lines := by
    refine List.dropWhile_cons_of_neg ?_
    rw [List.isPrefixOf_iff_prefix.2 (List.prefix_append _ inner)]
    exact Bool.false_ne_true
  unfold elements
  dsimp only
  rw [linesOf_render hspace hnames, split, List.append_assoc, List.map_append,
    List.dropWhile_append_of_pos skipped, List.append_assoc, List.map_append, shape,
    List.cons_append, found, List.flatten_cons, List.flatten_append,
    List.append_assoc, List.drop_left, ← List.append_assoc, closed, List.append_assoc,
    List.cons_append, Text.takeWhile_ne inside, names]

end

/-! ### One text, one registry -/

/-- The text of a class gives back all that it was made of: the names as constants, each with its
own name as value, and as elements of the list, the types as entries of the map.  No other
namespace or table has the same text. -/
theorem render_determines {space : String} {t : RouteTable} (hspace : '\n' ∉ space.toList)
    (hnames : ∀ name ∈ t.names, RouteName.Valid emitter.reserved name) :
    ∃ text, emitter.render space t = .ok text ∧
      constants text = t.names.map (fun name => (name, name)) ∧
      elements text = t.names ∧
      puts text = t.typed ∧
      ∀ (space' : String) (t' : RouteTable), '\n' ∉ space'.toList →
        (∀ name ∈ t'.names, RouteName.Valid emitter.reserved name) →
        emitter.render space' t' = .ok text → space' = space ∧ t' = t := by
  have names := elements_render hspace hnames
  have typed := puts_render hspace hnames
  refine ⟨render space t, rfl, constants_render hspace hnames, names, typed, ?_⟩
  intro space' t' hspace' hnames' same
  have text : render space' t' = render space t := Except.ok.inj same
  constructor
  · rw [← namespaceOf_render hspace' hnames', text, namespaceOf_render hspace hnames]
  -- the names and the puts together are the entries, untyped ones being names without a put
  · refine RouteTable.ext ?_
    rw [t'.entries_eq, t.entries_eq, ← elements_render hspace' hnames',
      ← puts_render hspace' hnames', text, names, typed]

/-- A table with a type that would break lines and literals if it were written as it is. -/
def small : RouteTable := ⟨[("HomePage", some "app.\"Home\"\n);"), ("Help", none)], by decide⟩

/-- A type with quotes, a line break and what looks like the end of a statement in it. -/
theorem render_determines_small :
    ∃ text, emitter.render "app" small = .ok text ∧
      constants text = [("HomePage", "HomePage"), ("Help", "Help")] ∧
      elements text = ["HomePage", "Help"] ∧
      puts text = [("HomePage", "app.\"Home\"\n);")] := by
  have hspace : '\n' ∉ "app".toList := by decide +kernel
  have hnames : ∀ name ∈ small.names, RouteName.Valid emitter.reserved name := by decide +kernel
  obtain ⟨text, rendered, declared, list, map, -⟩ := render_determines hspace hnames
  exact ⟨text, rendered, declared, list, map⟩

end RoutesClass

end RouteRegistry
