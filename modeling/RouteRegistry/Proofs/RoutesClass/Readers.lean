/-
RouteRegistry/Proofs/RoutesClass/Readers.lean

Readers of the generated class, and what they make of a single line.

The readers know only the text.  They cut it into lines and pick those that
declare something: `namespaceOf` the package, `constants` the string constants,
`elements` the list of all routes and `puts` the entries of the map, whose
literals are read as Java reads them.

Each goes by the text that its declarations begin with, its `Lead`.  It reads
back the lines that are written for it (`package?_packageLine`,
`constant?_constantLine`, `put?_putLine`), and since no two leads agree, it
passes over the lines of the others and over all the lines that every class has
(`Lead.Guards`).
-/
import Mathlib.Data.List.Basic
import RouteRegistry.Proofs.Request
import RouteRegistry.Proofs.Source.Quoting
import RouteRegistry.Proofs.Text.Splitting
import RouteRegistry.Proofs.Text.Trimming
import RouteRegistry.RoutesClass

namespace RouteRegistry

/-! ### Words and lines -/

namespace Text

theorem takeWhile_ne {α : Type} [DecidableEq α] {q : α} {lead : List α} (h : q ∉ lead)
    (rest : List α) : (lead ++ q :: rest).takeWhile (· ≠ q) = lead := by
  have before : ∀ c ∈ lead, decide (c ≠ q) = true := by
    intro c hc
    exact decide_eq_true fun e => h (e ▸ hc)
  rw [List.takeWhile_append_of_pos before, List.takeWhile_cons_of_neg (by simp), List.append_nil]

theorem stripStart?_eq_none {lead s : List Char} (h : ¬ lead <+: s) :
    stripStart? lead s = none := by
  unfold stripStart?
  rw [if_neg fun e => h (List.isPrefixOf_iff_prefix.1 e)]

/-- Neither text begins with the other. -/
def Apart (a b : List Char) : Prop := ¬ a <+: b ∧ ¬ b <+: a

instance (a b : List Char) : Decidable (Apart a b) := inferInstanceAs (Decidable (_ ∧ _))

/-- Texts that part before either ends begin no common text. -/
theorem Apart.not_prefix_append {a b : List Char} (h : Apart a b) (s : List Char) :
    ¬ a <+: b ++ s :=
  fun e => (List.prefix_or_prefix_of_prefix e (List.prefix_append b s)).elim h.1 h.2

end Text

namespace RoutesClass

/-! ### Readers -/

/-- The lines of a text; behind the last line end there is an empty one. -/
def linesOf (text : String) : List (List Char) := Text.splitOn '\n' text.toList

/-- The value of the string literal that the text begins with, and what follows the literal. -/
def literal? (s : List Char) : Option (String × List Char) :=
  if s.head? = some '"' then
    let n := (Source.firstPiece s).2
    some (String.ofList (Source.literalValue (s.take n)), s.drop n)
  else none

/-- The declarations that are looked for, by what their first line begins with. -/
inductive Lead where
  | package
  | constant
  | list
  | put
  deriving DecidableEq

/-- How lines of the kind begin. -/
def Lead.text : Lead → String
  | .package => "package "
  | .constant => "    public static final String "
  | .list => "    public static final java.util.List<String> AllRoutes = java.util.List.of("
  | .put => "        routeTypes.put("

/-- The name of the package that the line declares. -/
def package? (line : List Char) : Option String :=
  ((Text.stripStart? Lead.package.text.toList line).bind (Text.stripEnd? [';'])).map String.ofList

/-- The name and the value of the string constant that the line declares. -/
def constant? (line : List Char) : Option (String × String) :=
  (Text.stripStart? Lead.constant.text.toList line).bind fun declared =>
    let name := declared.takeWhile (· ≠ ' ')
    (Text.stripStart? [' ', '=', ' '] (declared.drop name.length)).bind fun assigned =>
      (literal? assigned).bind fun value =>
        if value.2 = [';'] then some (String.ofList name, value.1) else none

/-- The key and the value that the line puts into the map. -/
def put? (line : List Char) : Option (String × String) :=
  (Text.stripStart? Lead.put.text.toList line).bind fun arguments =>
    (literal? arguments).bind fun key =>
      (Text.stripStart? [',', ' '] key.2).bind fun second =>
        (literal? second).bind fun value =>
          if value.2 = [')', ';'] then some (key.1, value.1) else none

/-- The names between the commas of a list. -/
def listed (s : List Char) : List String :=
  ((Text.splitOn ',' (Text.squeeze s)).filter (· ≠ [])).map String.ofList

/-- The namespace that the text declares; without a declaration it is the empty one. -/
def namespaceOf (text : String) : String := ((linesOf text).filterMap package?).headD ""

/-- The string constants that the text declares, with their values. -/
def constants (text : String) : List (String × String) := (linesOf text).filterMap constant?

/-- The elements of the list of all routes, which is between the parentheses behind its lead and
can go over several lines. -/
def elements (text : String) : List String :=
  let lead := Lead.list.text.toList
  let declaration := ((linesOf text).dropWhile fun line => !lead.isPrefixOf line).flatten
  listed ((declaration.drop lead.length).takeWhile (· ≠ ')'))

/-- The entries of the map, in the order in which they are put. -/
def puts (text : String) : List (String × String) := (linesOf text).filterMap put?

/-! ### The lines of a class -/

/-- The lines before the list that every class has. -/
def openingLines : List String :=
  ["// <auto-generated/>", "", "public final class Routes \x7b", "    private Routes() \x7b",
    "    \x7d"]

/-- The lines that every class has, or that depend on nothing but whether there are names. -/
def fixedLines : List String :=
  openingLines ++
  ["    public static final java.util.List<String> AllRoutes = java.util.List.of();",
    "    public static final java.util.List<String> AllRoutes = java.util.List.of(", "    );",
    "    public static final java.util.Map<String, String> RouteTypeMap;", "    static \x7b",
    "        java.util.Map<String, String> routeTypes = new java.util.LinkedHashMap<>();",
    "        RouteTypeMap = java.util.Collections.unmodifiableMap(routeTypes);", "\x7d"]

/-- A reader that picks none of the fixed lines reads those that depend on namespace and table. -/
theorem filterMap_lines {β : Type} {read : String → Option β}
    (silent : ∀ line ∈ fixedLines, read line = none) (space : String) (t : RouteTable) :
    (lines space t).filterMap read =
      (packageLines space).filterMap read ++ (t.names.map constantLine).filterMap read ++
        (elementLines t.names).filterMap read ++
        (t.typed.map fun e => putLine e.1 e.2).filterMap read := by
  have fixed {ls : List String} (h : ∀ line ∈ ls, line ∈ fixedLines) : ls.filterMap read = [] :=
    List.filterMap_eq_nil_iff.2 fun line hline => silent line (h line hline)
  have gap : (if t.names = [] then [] else [""]).filterMap read = [] := fixed (by split <;> decide)
  have list : (listLines t.names).filterMap read = (elementLines t.names).filterMap read := by
    unfold listLines
    split
    case isTrue h =>
      rw [h]
      exact fixed (by decide)
    case isFalse =>
      rw [List.cons_append, List.filterMap_cons_none (silent _ (by decide)), List.filterMap_append,
        fixed (by decide : ∀ line ∈ ["    );"], line ∈ fixedLines), List.append_nil]
  unfold lines
  simp (disch := decide) only [List.filterMap_append, gap, list, fixed, List.nil_append,
    List.append_nil]

/-- The kinds of lines. -/
theorem mem_lines {space : String} {t : RouteTable} {line : String} (h : line ∈ lines space t) :
    line ∈ fixedLines ∨ line ∈ packageLines space ∨ line ∈ t.names.map constantLine ∨
      line ∈ elementLines t.names ∨ line ∈ t.typed.map fun e => putLine e.1 e.2 := by
  by_cases fixed : line ∈ fixedLines
  · exact .inl fixed
  -- the reader that picks this line only finds it among those that are not fixed
  let pick (l : String) : Option String := if l = line then some l else none
  have silent : ∀ l ∈ fixedLines, pick l = none := by
    intro l hl
    exact if_neg fun e : l = line => fixed (e ▸ hl)
  have found {ls : List String} : line ∈ ls.filterMap pick ↔ line ∈ ls := by
    constructor
    · intro hline
      obtain ⟨l, hl, e⟩ := List.mem_filterMap.1 hline
      have same : l = line := by
        by_contra other
        rw [show pick l = none from if_neg other] at e
        cases e
      exact same ▸ hl
    · intro hline
      exact List.mem_filterMap.2 ⟨line, hline, if_pos rfl⟩
  have picked := found.2 h
  rw [filterMap_lines silent] at picked
  simp only [List.mem_append, found] at picked
  rcases picked with ((h | h) | h) | h
  · exact .inr (.inl h)
  · exact .inr (.inr (.inl h))
  · exact .inr (.inr (.inr (.inl h)))
  · exact .inr (.inr (.inr (.inr h)))

theorem mem_elementLines {routes : List String} {line : String} (h : line ∈ elementLines routes) :
    ∃ route ∈ routes, line = "        " ++ route ∨ line = "        " ++ route ++ "," := by
  induction routes with
  | nil => exact absurd h List.not_mem_nil
  | cons route rest ih =>
    cases rest with
    | nil => exact ⟨route, List.mem_cons_self .., .inl (List.mem_singleton.1 h)⟩
    | cons second rest =>
      rcases List.mem_cons.1 h with h | h
      · exact ⟨route, List.mem_cons_self .., .inr h⟩
      · obtain ⟨other, mem, h⟩ := ih h
        exact ⟨other, List.mem_cons_of_mem route mem, h⟩

/-- Around the names stand blanks and commas only. -/
theorem not_mem_elementLine {c : Char} {routes : List String} {line : String}
    (hblank : c ≠ ' ') (hcomma : c ≠ ',') (hroutes : ∀ route ∈ routes, c ∉ route.toList)
    (h : line ∈ elementLines routes) : c ∉ line.toList := by
  have indentation : "        ".toList = List.replicate 8 ' ' := String.toList_ofList
  have comma : ",".toList = [','] := String.toList_ofList
  obtain ⟨route, hroute, rfl | rfl⟩ := mem_elementLines h
  · rw [String.toList_append, indentation]
    simp [hblank, hroutes route hroute]
  · rw [String.toList_append, String.toList_append, indentation, comma]
    simp [hblank, hcomma, hroutes route hroute]

theorem toList_packageLine (space : String) :
    ("package " ++ space ++ ";").toList = Lead.package.text.toList ++ (space.toList ++ [';']) := by
  rw [String.append_assoc, String.toList_append, String.toList_append]
  exact congrArg (fun s => Lead.package.text.toList ++ (space.toList ++ s)) String.toList_ofList

theorem toList_constantLine (route : String) :
    (constantLine route).toList =
      Lead.constant.text.toList ++
        (route.toList ++ ([' ', '=', ' '] ++ ((Source.quote route).toList ++ [';']))) := by
  have assign : " = ".toList = [' ', '=', ' '] := String.toList_ofList
  have semicolon : ";".toList = [';'] := String.toList_ofList
  unfold constantLine
  simp only [String.toList_append, List.append_assoc, assign, semicolon, Lead.text]

theorem toList_putLine (route type : String) :
    (putLine route type).toList =
      Lead.put.text.toList ++ ((Source.quote route).toList ++
        ([',', ' '] ++ ((Source.quote type).toList ++ [')', ';']))) := by
  have comma : ", ".toList = [',', ' '] := String.toList_ofList
  have close : ");".toList = [')', ';'] := String.toList_ofList
  unfold putLine
  simp only [String.toList_append, List.append_assoc, comma, close, Lead.text]

/-- A literal is read back, unless what follows would make it a text block. -/
theorem literal?_quote (v : String) {s : List Char} (hs : s.head? ≠ some '"') :
    literal? ((Source.quote v).toList ++ s) = some (v, s) := by
  have quoted : ((Source.quote v).toList ++ s).head? = some '"' := by
    rw [Source.toList_quote]
    rfl
  unfold literal?
  rw [if_pos quoted]
  dsimp only
  rw [Source.firstPiece_quote v hs, List.take_left, List.drop_left,
    Source.value_quote, String.ofList_toList]

/-- The line of a constant is read back. -/
theorem constant?_constantLine {route : String} (h : ' ' ∉ route.toList) :
    constant? (constantLine route).toList = some (route, route) := by
  have name (s : List Char) :
      (route.toList ++ ([' ', '=', ' '] ++ s)).takeWhile (· ≠ ' ') = route.toList :=
    Text.takeWhile_ne h _
  rw [toList_constantLine]
  unfold constant?
  rw [Text.stripStart?_append, Option.bind_some]
  dsimp only
  rw [name, List.drop_left, Text.stripStart?_append, Option.bind_some,
    literal?_quote route (by simp), Option.bind_some, if_pos rfl, String.ofList_toList]

/-- The entry of the map is read back. -/
theorem put?_putLine (route type : String) :
    put? (putLine route type).toList = some (route, type) := by
  rw [toList_putLine]
  unfold put?
  rw [Text.stripStart?_append, Option.bind_some, literal?_quote route (by simp),
    Option.bind_some]
  dsimp only
  rw [Text.stripStart?_append, Option.bind_some, literal?_quote type (by simp),
    Option.bind_some, if_pos rfl]

/-- The package is read back. -/
theorem package?_packageLine (space : String) :
    package? ("package " ++ space ++ ";").toList = some space := by
  rw [toList_packageLine]
  unfold package?
  rw [Text.stripStart?_append, Option.bind_some, Text.stripEnd?_append, Option.map_some,
    String.ofList_toList]

/-! ### No line breaks -/

/-- A literal stays on its line, whatever text it stands for. -/
theorem newline_not_mem_quote (v : String) : '\n' ∉ (Source.quote v).toList :=
  List.count_eq_zero.1 (Source.count_quote v)

theorem newline_not_mem_fixedLine : ∀ line ∈ fixedLines, '\n' ∉ line.toList := by
  simp only [fixedLines, openingLines, List.cons_append, List.nil_append, List.forall_mem_cons]
  -- each literal as the list of its characters, which leaves nothing to decode
  repeat rw [String.toList_ofList]
  decide

theorem Lead.newline_not_mem (a : Lead) : '\n' ∉ a.text.toList := by
  cases a
  all_goals
    simp only [Lead.text]
    rw [String.toList_ofList]
    decide

/-- Neither namespace nor table can break a line. -/
theorem newline_not_mem_lines {space : String} {t : RouteTable} (hspace : '\n' ∉ space.toList)
    (hnames : ∀ name ∈ t.names, RouteName.Valid reserved name) :
    ∀ line ∈ lines space t, '\n' ∉ line.toList := by
  have name : ∀ route ∈ t.names, '\n' ∉ route.toList :=
    fun route h => (hnames route h).not_mem (by decide)
  intro line hline
  -- a line is fixed, or it shows the namespace, a valid name or a quoted text
  rcases mem_lines hline with h | h | h | h | h
  · exact newline_not_mem_fixedLine line h
  · unfold packageLines at h
    split at h
    · exact absurd h List.not_mem_nil
    · rw [List.mem_singleton.1 h, toList_packageLine]
      simp [Lead.newline_not_mem, hspace]
  · obtain ⟨route, hroute, rfl⟩ := List.mem_map.1 h
    rw [toList_constantLine]
    simp [Lead.newline_not_mem, name route hroute, newline_not_mem_quote]
  · exact not_mem_elementLine (by decide) (by decide) name h
  · obtain ⟨e, -, rfl⟩ := List.mem_map.1 h
    rw [toList_putLine]
    simp [Lead.newline_not_mem, newline_not_mem_quote]

/-- Each line is cut where it is broken. -/
theorem linesOf_unlines_eq (ls : List String) :
    linesOf (unlines ls) = (ls.flatMap fun l => Text.splitOn '\n' l.toList) ++ [[]] := by
  unfold linesOf unlines
  rw [String.toList_ofList]
  induction ls with
  | nil => rfl
  | cons line ls ih =>
    rw [List.flatMap_cons, List.append_assoc, List.singleton_append, Text.splitOn_append, ih,
      List.flatMap_cons, List.append_assoc]

/-- Lines without line breaks are not split. -/
theorem flatMap_splitOn {ls : List String} (h : ∀ line ∈ ls, '\n' ∉ line.toList) :
    (ls.flatMap fun l => Text.splitOn '\n' l.toList) = ls.map String.toList := by
  rw [← List.flatMap_pure_eq_map]
  exact List.flatMap_congr fun line hline => Text.splitOn_of_not_mem (h line hline)

/-- The lines of a text are those that it was made of. -/
theorem linesOf_unlines {ls : List String} (h : ∀ line ∈ ls, '\n' ∉ line.toList) :
    linesOf (unlines ls) = (ls ++ [""]).map String.toList := by
  rw [linesOf_unlines_eq, flatMap_splitOn h, List.map_append]
  rfl

/-! ### What the readers pass over -/

namespace Lead

/-- The beginnings of lines of different kinds part before either ends. -/
theorem apart {a b : Lead} (h : a ≠ b) : Text.Apart a.text.toList b.text.toList := by
  revert h
  cases a <;> cases b
  all_goals
    simp only [Lead.text]
    repeat rw [String.toList_ofList]
    decide

/-- Only the lead of an entry begins with as many blanks as an element of the list. -/
theorem apart_indentation {a : Lead} (h : a ≠ .put) :
    Text.Apart a.text.toList "        ".toList := by
  revert h
  cases a
  all_goals
    simp only [Lead.text]
    repeat rw [String.toList_ofList]
    decide

theorem not_prefix_openingLine (a : Lead) :
    ∀ line ∈ openingLines, ¬ a.text.toList <+: line.toList := by
  cases a
  all_goals
    simp only [Lead.text, openingLines, List.forall_mem_cons]
    repeat rw [String.toList_ofList]
    decide

/-- No fixed line but that of the list can be taken for a line of one of the kinds. -/
theorem not_prefix_fixedLine {a : Lead} (h : a ≠ .list) :
    ∀ line ∈ fixedLines, ¬ a.text.toList <+: line.toList := by
  revert h
  cases a
  all_goals
    simp only [Lead.text, fixedLines, openingLines, List.cons_append, List.nil_append,
      List.forall_mem_cons]
    repeat rw [String.toList_ofList]
    decide

variable {a : Lead} {space line : String} {names : List String}

theorem not_prefix_packageLine (h : a ≠ .package) (hline : line ∈ packageLines space) :
    ¬ a.text.toList <+: line.toList := by
  unfold packageLines at hline
  split at hline
  · exact absurd hline List.not_mem_nil
  · rw [List.mem_singleton.1 hline, toList_packageLine]
    exact (apart h).not_prefix_append _

theorem not_prefix_constantLine (h : a ≠ .constant) (hline : line ∈ names.map constantLine) :
    ¬ a.text.toList <+: line.toList := by
  obtain ⟨route, -, rfl⟩ := List.mem_map.1 hline
  rw [toList_constantLine]
  exact (apart h).not_prefix_append _

theorem not_prefix_elementLine (h : a ≠ .put) (hline : line ∈ elementLines names) :
    ¬ a.text.toList <+: line.toList := by
  obtain ⟨route, -, rfl | rfl⟩ := mem_elementLines hline
  · rw [String.toList_append]
    exact (apart_indentation h).not_prefix_append _
  · rw [String.append_assoc, String.toList_append]
    exact (apart_indentation h).not_prefix_append _

theorem not_prefix_putLine {typed : List (String × String)} (h : a ≠ .put)
    (hline : line ∈ typed.map fun e => putLine e.1 e.2) : ¬ a.text.toList <+: line.toList := by
  obtain ⟨e, -, rfl⟩ := List.mem_map.1 hline
  rw [toList_putLine]
  exact (apart h).not_prefix_append _

end Lead

/-! ### The parts of a class -/

/-- The line that opens the class. -/
def heading : String := "public final class Routes \x7b"

/-- The lines in front of the class. -/
def headLines (space : String) : List String :=
  ["// <auto-generated/>"] ++ packageLines space ++ [""]

/-- The lines of the class in front of the list. -/
def constantsPart (t : RouteTable) : List String :=
  ["    private Routes() \x7b", "    \x7d"] ++ (if t.names = [] then [] else [""]) ++
    t.names.map constantLine ++ [""]

/-- The lines of the class behind the list. -/
def mapPart (t : RouteTable) : List String :=
  ["",
    "    public static final java.util.Map<String, String> RouteTypeMap;",
    "",
    "    static \x7b",
    "        java.util.Map<String, String> routeTypes = new java.util.LinkedHashMap<>();"] ++
  t.typed.map (fun e => putLine e.1 e.2) ++
  ["        RouteTypeMap = java.util.Collections.unmodifiableMap(routeTypes);",
    "    \x7d",
    "\x7d"]

/-- The lines between the two that open and close the class, and the latter. -/
def bodyLines (t : RouteTable) : List String :=
  constantsPart t ++ (listLines t.names ++ mapPart t)

/-- The lines are those up to the heading, the heading, and the body. -/
theorem lines_eq (space : String) (t : RouteTable) :
    lines space t = headLines space ++ heading :: bodyLines t := by
  unfold lines bodyLines mapPart constantsPart headLines heading
  simp only [List.append_assoc, List.cons_append, List.nil_append]

/-- The list stands behind lines that do not begin as it does. -/
theorem not_prefix_opening {space : String} {t : RouteTable} {line : String}
    (hline : line ∈ headLines space ++ heading :: constantsPart t) :
    ¬ Lead.list.text.toList <+: line.toList := by
  have opened {ls : List String} (h : ∀ line ∈ ls, line ∈ openingLines) (hline : line ∈ ls) :
      ¬ Lead.list.text.toList <+: line.toList :=
    Lead.list.not_prefix_openingLine line (h line hline)
  rcases List.mem_append.1 hline with hline | hline
  · unfold headLines at hline
    simp only [List.mem_append] at hline
    rcases hline with (h | h) | h
    · exact opened (by decide) h
    · exact Lead.not_prefix_packageLine (by decide) h
    · exact opened (by decide) h
  · unfold constantsPart at hline
    rcases List.mem_cons.1 hline with rfl | hline
    · exact Lead.list.not_prefix_openingLine heading (by decide)
    simp only [List.mem_append] at hline
    rcases hline with ((h | h) | h) | h
    · exact opened (by decide) h
    · exact opened (by split <;> decide) h
    · exact Lead.not_prefix_constantLine (by decide) h
    · exact opened (by decide) h

/-- The reader takes only lines with that lead. -/
def Lead.Guards {β : Type} (a : Lead) (read : List Char → Option β) : Prop :=
  ∀ line, ¬ a.text.toList <+: line → read line = none

theorem guards_package? : Lead.package.Guards package? := by
  intro line h
  unfold package?
  rw [Text.stripStart?_eq_none h, Option.bind_none, Option.map_none]

theorem guards_constant? : Lead.constant.Guards constant? := by
  intro line h
  unfold constant?
  rw [Text.stripStart?_eq_none h, Option.bind_none]

theorem guards_put? : Lead.put.Guards put? := by
  intro line h
  unfold put?
  rw [Text.stripStart?_eq_none h, Option.bind_none]

section

variable {β : Type} {a : Lead} {read : List Char → Option β} (guards : a.Guards read)

include guards

/-- A reader finds nothing on lines that begin differently. -/
theorem filterMap_eq_nil {ls : List String} (h : ∀ line ∈ ls, ¬ a.text.toList <+: line.toList) :
    ls.filterMap (read ∘ String.toList) = [] :=
  List.filterMap_eq_nil_iff.2 fun line hline => guards _ (h line hline)

theorem filterMap_packageLines (h : a ≠ .package) (space : String) :
    (packageLines space).filterMap (read ∘ String.toList) = [] :=
  filterMap_eq_nil guards fun _ => Lead.not_prefix_packageLine h

theorem filterMap_constantLines (h : a ≠ .constant) (names : List String) :
    (names.map constantLine).filterMap (read ∘ String.toList) = [] :=
  filterMap_eq_nil guards fun _ => Lead.not_prefix_constantLine h

theorem filterMap_elementLines (h : a ≠ .put) (names : List String) :
    (elementLines names).filterMap (read ∘ String.toList) = [] :=
  filterMap_eq_nil guards fun _ => Lead.not_prefix_elementLine h

theorem filterMap_putLines (h : a ≠ .put) (typed : List (String × String)) :
    (typed.map fun e => putLine e.1 e.2).filterMap (read ∘ String.toList) = [] :=
  filterMap_eq_nil guards fun _ => Lead.not_prefix_putLine h

end

/-- A reader that reads back what is written for a value reads back what is written for a list. -/
theorem filterMap_eq_map {α β : Type} {read : List Char → Option β} {write : α → String}
    {value : α → β} {as : List α} (own : ∀ a ∈ as, read (write a).toList = some (value a)) :
    (as.map write).filterMap (read ∘ String.toList) = as.map value := by
  rw [List.filterMap_map]
  exact (List.filterMap_congr own).trans (congrFun List.filterMap_eq_map' as)

end RoutesClass

end RouteRegistry
