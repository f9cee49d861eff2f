/-
RouteRegistry/Proofs/RoutesClass/Naming.lean

The names in the generated class.

* `WellNamed` says that the fields have distinct names, that Java takes the names
  of the constants, that the list has only constants that stand in front of it,
  and that the keys of the map are values of constants, each put once.
* `wellNamed_render`: a table of valid names makes such a class, and a pass lets in
  no other names (`Generator.valid_of_generated`).

Main result (`wellNamed_of_generated`): every class that a pass generates is
well named.
-/
import Mathlib.Data.List.Nodup
import RouteRegistry.Proofs.Pass.Outcome
import RouteRegistry.Proofs.RoutesClass.ClassText
import RouteRegistry.Project.Pass

namespace RouteRegistry.RoutesClass

/-! ### Names in Java -/

/-- A character of ASCII that a Java identifier can begin with. -/
def IsLetter (c : Char) : Prop :=
  ('a' ≤ c ∧ c ≤ 'z') ∨ ('A' ≤ c ∧ c ≤ 'Z') ∨ c = '_' ∨ c = '$'

/-- The digits of an identifier. -/
def IsDigit (c : Char) : Prop := '0' ≤ c ∧ c ≤ '9'

/-- The form of a Java identifier, in ASCII. -/
def IsIdentifier (name : String) : Prop :=
  ∃ c cs, name.toList = c :: cs ∧ IsLetter c ∧ ∀ x ∈ cs, IsLetter x ∨ IsDigit x

/-- The words that have the form of an identifier and are none: keywords and literals. -/
def javaWords : List String :=
  ["abstract", "continue", "for", "new", "switch", "assert", "default", "if", "package",
    "synchronized", "boolean", "do", "goto", "private", "this", "break", "double", "implements",
    "protected", "throw", "byte", "else", "import", "public", "throws", "case", "enum",
    "instanceof", "return", "transient", "catch", "extends", "int", "short", "try", "char",
    "final", "interface", "static", "void", "class", "finally", "long", "strictfp", "volatile",
    "const", "float", "native", "super", "while", "true", "false", "null"]

theorem isLetter_of_isAlpha {c : Char} (h : c.isAlpha = true) : IsLetter c := by
  have upper : c.isUpper = decide (65 ≤ c.val ∧ c.val ≤ 90) := rfl
  have lower : c.isLower = (decide (97 ≤ c.val) && decide (c.val ≤ 122)) := rfl
  unfold Char.isAlpha at h
  rw [upper, lower, Bool.or_eq_true, Bool.and_eq_true, decide_eq_true_eq, decide_eq_true_eq,
    decide_eq_true_eq] at h
  rcases h with h | h
  · exact .inr (.inl h)
  · exact .inl h

theorem isDigit_of_isDigit {c : Char} (h : c.isDigit = true) : IsDigit c := by
  have digit : c.isDigit = (decide (48 ≤ c.val) && decide (c.val ≤ 57)) := rfl
  rwa [digit, Bool.and_eq_true, decide_eq_true_eq, decide_eq_true_eq] at h

/-- A route name has the form of an identifier. -/
theorem isIdentifier_of_valid {name : String} (h : RouteName.Valid reserved name) :
    IsIdentifier name := by
  obtain ⟨c, cs, shape, first, rest⟩ := h.grammar
  have underscore : IsLetter '_' := .inr (.inr (.inl rfl))
  refine ⟨c, cs, shape, ?_, fun x hx => ?_⟩
  · rcases first with alpha | rfl
    · exact isLetter_of_isAlpha alpha
    · exact underscore
  · rcases rest x hx with h | rfl
    · unfold Char.isAlphanum at h
      exact (Bool.or_eq_true_iff.1 h).imp isLetter_of_isAlpha isDigit_of_isDigit
    · exact .inl underscore

/-- What Java takes, and what the class takes itself, is reserved. -/
theorem reserved_covers :
    ∀ word ∈ javaWords ++ ["_", "java", "AllRoutes", "RouteTypeMap"], word ∈ reserved := by
  decide

/-- A route name is none of the words that the language or the class itself uses. -/
theorem ne_of_valid {name word : String} (h : RouteName.Valid reserved name)
    (hword : word ∈ javaWords ++ ["_", "java", "AllRoutes", "RouteTypeMap"]) : name ≠ word := by
  rintro rfl
  exact h.free (reserved_covers name hword)

/-! ### Names in a class -/

/-- The words in front of a value. -/
def words (declared : List Char) : List (List Char) :=
  (Text.splitOn ' ' (declared.takeWhile fun c => c ≠ '=' ∧ c ≠ ';')).filter (· ≠ [])

/-- The name that the line declares a field by: the last word in front of its value. -/
def field? (line : List Char) : Option String :=
  (Text.stripStart? "    public static final ".toList line).bind fun declared =>
    (words declared).getLast?.map String.ofList

/-- The fields that the text declares. -/
def fields (text : String) : List String := (linesOf text).filterMap field?

/-- The names that the class declares, lists and puts into its map fit together, and Java takes
them. -/
structure WellNamed (text : String) : Prop where
  fields_eq : fields text = (constants text).map Prod.fst ++ ["AllRoutes", "RouteTypeMap"]
  distinct : (fields text).Nodup
  identifier : ∀ name ∈ (constants text).map Prod.fst,
    IsIdentifier name ∧ name ∉ javaWords ∧ name ≠ "_" ∧ name ≠ "java"
  listed : ∀ name ∈ elements text, name ∈ constantsBeforeList text
  keys : ∀ key ∈ (puts text).map Prod.fst, key ∈ (constants text).map Prod.snd
  once : ((puts text).map Prod.fst).Nodup

/-! ### Fields -/

/-- What a blank, or the end of a declaration, separates. -/
structure IsWord (w : List Char) : Prop where
  nonempty : w ≠ []
  unbroken : ∀ c ∈ w, c ≠ ' ' ∧ c ≠ '=' ∧ c ≠ ';'

theorem isWord_of_valid {name : String} (h : RouteName.Valid reserved name) :
    IsWord name.toList := by
  have other {c q : Char} (hc : c ∈ name.toList) (hq : RouteName.isPart q = false) : c ≠ q :=
    fun e => h.not_mem hq (e ▸ hc)
  constructor
  case nonempty =>
    obtain ⟨c, cs, shape, -⟩ := h.grammar
    rw [shape]
    exact List.cons_ne_nil c cs
  case unbroken =>
    exact fun c hc => ⟨other hc (by decide), other hc (by decide), other hc (by decide)⟩

/-- In a declaration the type and the name stand in front of the equals sign. -/
theorem words_declared {type name : List Char} (htype : IsWord type) (hname : IsWord name)
    (value : List Char) : words (type ++ ' ' :: (name ++ ' ' :: '=' :: value)) = [type, name] := by
  have blank {w : List Char} (hw : IsWord w) : ' ' ∉ w := fun h => (hw.unbroken _ h).1 rfl
  have inside {w : List Char} (hw : IsWord w) : ∀ c ∈ w, decide (c ≠ '=' ∧ c ≠ ';') = true :=
    fun c hc => decide_eq_true (hw.unbroken c hc).2
  -- the words are read up to the first `=`, which none of them contains
  have before : ∀ c ∈ type ++ ' ' :: (name ++ [' ']), decide (c ≠ '=' ∧ c ≠ ';') = true := by
    simp only [List.forall_mem_append, List.forall_mem_cons]
    exact ⟨inside htype, by decide, inside hname, by decide, fun _ h => absurd h List.not_mem_nil⟩
  have declared : type ++ ' ' :: (name ++ ' ' :: '=' :: value) =
      type ++ ' ' :: (name ++ [' ']) ++ '=' :: value := by
    simp
  unfold words
  rw [declared, List.takeWhile_append_of_pos before, List.takeWhile_cons_of_neg (by decide),
    List.append_nil, Text.splitOn_append, Text.splitOn_append,
    Text.splitOn_of_not_mem (blank htype), Text.splitOn_of_not_mem (blank hname)]
  simp [Text.splitOn, htype.nonempty, hname.nonempty]

/-- The line of a constant declares the route. -/
theorem field?_constantLine {route : String} (h : RouteName.Valid reserved route) :
    field? (constantLine route).toList = some route := by
  have lead : Lead.constant.text.toList =
      "    public static final ".toList ++ (['S', 't', 'r', 'i', 'n', 'g'] ++ [' ']) := by
    decide
  have type : IsWord ['S', 't', 'r', 'i', 'n', 'g'] := ⟨by decide, by simp⟩
  rw [toList_constantLine, lead, List.append_assoc, List.append_assoc]
  unfold field?
  rw [Text.stripStart?_append, Option.bind_some]
  exact (congrArg (fun ws => ws.getLast?.map String.ofList)
    (words_declared type (isWord_of_valid h) _)).trans (congrArg some String.ofList_toList)

/-- Elements and entries are indented further than a field. -/
theorem field?_indented {line : List Char} (h : "        ".toList <+: line) :
    field? line = none := by
  have apart : Text.Apart "    public static final ".toList "        ".toList := by decide
  obtain ⟨s, rfl⟩ := h
  unfold field?
  rw [Text.stripStart?_eq_none (apart.not_prefix_append s), Option.bind_none]

/-- The elements of the list declare nothing. -/
theorem fields_elementLines (names : List String) :
    (elementLines names).filterMap (field? ∘ String.toList) = [] := by
  refine List.filterMap_eq_nil_iff.2 fun line hline => field?_indented ?_
  obtain ⟨route, -, rfl | rfl⟩ := mem_elementLines hline
  · rw [String.toList_append]
    exact List.prefix_append ..
  · rw [String.append_assoc, String.toList_append]
    exact List.prefix_append ..

/-- The entries of the map declare nothing. -/
theorem fields_putLines (typed : List (String × String)) :
    (typed.map fun e => putLine e.1 e.2).filterMap (field? ∘ String.toList) = [] := by
  have lead : "        ".toList <+: Lead.put.text.toList := by decide
  refine List.filterMap_eq_nil_iff.2 fun line hline => field?_indented ?_
  obtain ⟨e, -, rfl⟩ := List.mem_map.1 hline
  rw [toList_putLine]
  exact lead.trans (List.prefix_append ..)

theorem field?_plainLine : ∀ line ∈ plainLines, field? line.toList = none := by
  simp only [plainLines, List.forall_mem_cons]
  repeat rw [String.toList_ofList]
  decide

theorem fields_plainLines {ls : List String} (h : ∀ line ∈ ls, line ∈ plainLines) :
    ls.filterMap (field? ∘ String.toList) = [] :=
  List.filterMap_eq_nil_iff.2 fun line hline => field?_plainLine line (h line hline)

theorem fields_memberLines :
    memberLines.map (field? ∘ String.toList) =
      [some "AllRoutes", some "AllRoutes", some "RouteTypeMap"] := by
  rw [← List.map_map]
  simp only [memberLines, List.map_cons, List.map_nil]
  repeat rw [String.toList_ofList]
  decide

/-- The list is one field, on however many lines. -/
theorem fields_listLines (names : List String) :
    (listLines names).filterMap (field? ∘ String.toList) = ["AllRoutes"] := by
  obtain ⟨empty, rest⟩ := List.cons.inj fields_memberLines
  obtain ⟨opened, -⟩ := List.cons.inj rest
  unfold listLines
  split
  · exact List.filterMap_cons_some empty
  · rw [List.cons_append, List.filterMap_cons_some opened, List.filterMap_append,
      fields_elementLines, fields_plainLines (by decide)]
    rfl

theorem fields_mapPart (t : RouteTable) :
    (mapPart t).filterMap (field? ∘ String.toList) = ["RouteTypeMap"] := by
  obtain ⟨-, rest⟩ := List.cons.inj fields_memberLines
  obtain ⟨map, -⟩ := List.cons.inj (List.cons.inj rest).2
  have gap : (field? ∘ String.toList) "" = none := field?_plainLine "" (by decide)
  -- statements inside the initializer declare locals only, and no field is read off them
  have opening :
      ["", "    static \x7b",
        "        java.util.Map<String, String> routeTypes = new java.util.LinkedHashMap<>();"].filterMap
          (field? ∘ String.toList) = [] := fields_plainLines (by decide)
  have closing :
      ["        RouteTypeMap = java.util.Collections.unmodifiableMap(routeTypes);", "    \x7d",
        "\x7d"].filterMap (field? ∘ String.toList) = [] := fields_plainLines (by decide)
  unfold mapPart
  rw [List.filterMap_append, List.filterMap_append, fields_putLines, closing,
    List.filterMap_cons_none gap, List.filterMap_cons_some map, opening, List.append_nil,
    List.append_nil]

section

variable {t : RouteTable} (hnames : ∀ name ∈ t.names, RouteName.Valid reserved name)

include hnames

theorem fields_constantsPart : (constantsPart t).filterMap (field? ∘ String.toList) = t.names := by
  have own : ∀ name ∈ t.names, field? (constantLine name).toList = some (id name) :=
    fun name h => field?_constantLine (hnames name h)
  unfold constantsPart
  rw [List.filterMap_append, List.filterMap_append, List.filterMap_append,
    fields_plainLines (by decide), fields_plainLines (by split <;> decide), filterMap_eq_map own,
    fields_plainLines (by decide), List.append_nil, List.nil_append, List.nil_append, List.map_id]

/-- The fields of the class are the routes, the list and the map. -/
theorem fields_classText (space : String) :
    fields (classText (render space t)) = t.names ++ ["AllRoutes", "RouteTypeMap"] := by
  unfold fields
  rw [linesOf_classText hnames, List.filterMap_map, bodyLines, List.filterMap_append,
    List.filterMap_append, List.filterMap_append, fields_constantsPart hnames, fields_listLines,
    fields_mapPart, fields_plainLines (by decide), List.append_nil]
  rfl

/-- Valid names make a class that is well named, whatever namespace is in front of it. -/
theorem wellNamed_render (space : String) : WellNamed (classText (render space t)) := by
  have names : (constants (classText (render space t))).map Prod.fst = t.names := by
    rw [constants_classText hnames, List.map_map]
    exact List.map_id' _
  have values : (constants (classText (render space t))).map Prod.snd = t.names := by
    rw [constants_classText hnames, List.map_map]
    exact List.map_id' _
  have typed : (t.typed.map Prod.fst).Sublist t.names := t.typed_sublist
  constructor
  case fields_eq => rw [fields_classText hnames, names]
  case distinct =>
    rw [fields_classText hnames]
    refine List.Nodup.append t.nodup (by decide) fun name hname own => ?_
    refine ne_of_valid (hnames name hname) (List.mem_append_right _ ?_) rfl
    -- the two fields of the class itself are reserved, so no valid name is one of them
    revert own
    generalize name = word
    revert word
    decide
  case identifier =>
    rw [names]
    intro name hname
    have valid := hnames name hname
    exact ⟨isIdentifier_of_valid valid, fun h => ne_of_valid valid (List.mem_append_left _ h) rfl,
      ne_of_valid valid (by decide), ne_of_valid valid (by decide)⟩
  case listed =>
    rw [elements_classText hnames, constantsBeforeList_classText hnames]
    exact fun name h => h
  case keys =>
    rw [puts_classText hnames, values]
    exact fun key h => typed.subset h
  case once =>
    rw [puts_classText hnames]
    exact typed.nodup t.nodup

end

/-! ### Passes -/

/-- Whatever catalog a pass is over, and whatever the settings are: if it generates, it adds a text
to the output in which the class has one string constant for each route and is well named. -/
theorem wellNamed_of_generated {config : Config} {c : Catalog} {cancel : Cancellation} {sink : Sink}
    {output : Output} {routes : GeneratedRoutes}
    (h : ((ProjectPass.generatorOf config).run c cancel sink output).outcome = .generated routes) :
    ∃ text, ((ProjectPass.generatorOf config).run c cancel sink output).output =
        output ++ [⟨"Routes.g.java", text⟩] ∧
      constants (classText text) = routes.table.names.map (fun name => (name, name)) ∧
      WellNamed (classText text) := by
  have valid : ∀ name ∈ routes.table.names, RouteName.Valid reserved name :=
    Generator.valid_of_generated h
  obtain ⟨text, rendered, added⟩ := Generator.output_of_generated h
  have shape : text = render routes.space routes.table := (Except.ok.inj rendered).symm
  refine ⟨text, added, ?_, ?_⟩
  · rw [shape]
    exact constants_classText valid routes.space
  · rw [shape]
    exact wellNamed_render valid routes.space

/-- A package that reads like a class of its own, and a class in it that asks for two routes, one of
them named as a word of Java. -/
def masked : Catalog := .ofList [
  ⟨⟨0⟩, "HomePage", "app;\npublic final class Routes \x7b\n    public static final String class",
    [], .classType, false,
    [⟨"AutoRoutes", [⟨none, .str "Page"⟩], none⟩, ⟨"ExtraRoute", [⟨none, .str "class"⟩], none⟩,
      ⟨"ExtraRoute", [⟨none, .str "Help"⟩], none⟩], none⟩]

/-- A class is generated, and its fields and their values are read off it. -/
theorem wellNamed_of_generated_masked :
    ∃ routes text,
      (Generator.run (ProjectPass.generatorOf .default) masked .never .memory []).outcome =
        .generated routes ∧
      (Generator.run (ProjectPass.generatorOf .default) masked .never .memory []).output =
        [⟨"Routes.g.java", text⟩] ∧
      constants (classText text) = [("HomePage", "HomePage"), ("Help", "Help")] ∧
      fields (classText text) = ["HomePage", "Help", "AllRoutes", "RouteTypeMap"] := by
  have evaluated : ((Generator.run (ProjectPass.generatorOf .default) masked .never .memory
      []).outcome.generated?.map fun routes => routes.table.names) = some ["HomePage", "Help"] := by
    decide +kernel
  rcases h : (Generator.run (ProjectPass.generatorOf .default) masked .never .memory []).outcome
    with - | - | routes | - | -
  case generated =>
    rw [h] at evaluated
    have names : routes.table.names = ["HomePage", "Help"] := Option.some.inj evaluated
    obtain ⟨text, added, declared, named⟩ := wellNamed_of_generated h
    rw [names] at declared
    refine ⟨routes, text, rfl, added, declared, ?_⟩
    rw [named.fields_eq, declared]
    rfl
  all_goals
    rw [h] at evaluated
    cases evaluated

end RouteRegistry.RoutesClass
