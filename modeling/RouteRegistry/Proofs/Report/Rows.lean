/-
RouteRegistry/Proofs/Report/Rows.lean

The report against the routes that it is about.

A report has the names in one list and the types in another, and the second is
looked up by the names of the first.  Since a table has no name twice, nothing is
lost (`RouteTable.entries_eq`).

The text has a row for each route (`IsRow`).  The column of the types is reckoned
in bytes and the rows are filled up by characters.  Names of routes have as many
bytes as characters (`RouteName.Valid.utf8ByteSize_eq`), so all rows reach the
column (`isRow_line`).

Main result (`report_of_generated`): the report of a pass gives back its routes
in order with their types, and if neither the namespace nor a type breaks a line,
its text is a header and one row for each route, aligned at one column.
-/
import Mathlib.Data.List.Forall2
import Mathlib.Data.String.Basic
import RouteRegistry.Proofs.Pass.Outcome
import RouteRegistry.Proofs.Table.Entries
import RouteRegistry.Proofs.Text.Splitting
import RouteRegistry.Report

namespace RouteRegistry

/-- A name has as many bytes as characters. -/
theorem RouteName.Valid.utf8ByteSize_eq {reserved : List String} {name : String}
    (h : Valid reserved name) : name.utf8ByteSize = name.length := by
  have one : ∀ c ∈ name.toList, c.utf8Size = 1 := by
    intro c hc
    -- the letters and digits of a name are ASCII: 122 is the code of its last letter, z
    have small : c.toNat ≤ 122 := (toNat_of_isPart (h.isPart hc)).2
    exact Char.utf8Size_eq_one_iff.2 (UInt32.le_iff_toNat_le.2 (Nat.le_trans small (by decide)))
  have bytes {cs : List Char} (hcs : ∀ c ∈ cs, c.utf8Size = 1) :
      String.utf8Len cs = cs.length := by
    induction cs with
    | nil => rfl
    | cons c cs ih =>
      rw [String.utf8Len_cons, ih fun x hx => hcs x (List.mem_cons_of_mem c hx),
        hcs c (List.mem_cons_self ..), List.length_cons]
  calc name.utf8ByteSize
      = (String.ofList name.toList).utf8ByteSize := by rw [String.ofList_toList]
    _ = name.toList.length := by rw [String.utf8ByteSize_ofList, bytes one]
    _ = name.length := String.length_toList

namespace Report

/-! ### Rows -/

/-- What stands in the column of the types. -/
def cell : Option String → List Char
  | some type => type.toList
  | none => ['-']

/-- The line is the row of the route: its name is indented by two blanks, and behind at least two
more its type begins at the column, or else a dash. -/
def IsRow (column : Nat) (route : String × Option String) (line : List Char) : Prop :=
  ∃ gap, 2 ≤ gap ∧ 2 + route.1.length + gap = column ∧
    line = ' ' :: ' ' :: (route.1.toList ++ (List.replicate gap ' ' ++ cell route.2))

/-- The column at which the types begin. -/
def column (names : List String) : Nat := width names + 4

/-- No name is wider than the column. -/
theorem utf8ByteSize_le_width {names : List String} {name : String} (h : name ∈ names) :
    name.utf8ByteSize ≤ width names := by
  -- the width only grows on the way through the names
  have grows (ns : List String) (w : Nat) :
      w ≤ ns.foldl (fun w n => max w n.utf8ByteSize) w ∧
        ∀ n ∈ ns, n.utf8ByteSize ≤ ns.foldl (fun w n => max w n.utf8ByteSize) w := by
    induction ns generalizing w with
    | nil => exact ⟨Nat.le_refl w, fun n hn => absurd hn List.not_mem_nil⟩
    | cons n ns ih =>
      obtain ⟨start, each⟩ := ih (max w n.utf8ByteSize)
      refine ⟨Nat.le_trans (Nat.le_max_left ..) start, fun m hm => ?_⟩
      rcases List.mem_cons.1 hm with rfl | hm
      · exact Nat.le_trans (Nat.le_max_right ..) start
      · exact each m hm
  exact (grows names 0).2 name h

theorem toList_padded (w : Nat) (name : String) :
    (padded w name).toList = name.toList ++ List.replicate (w - name.length) ' ' :=
  String.toList_ofList

/-- A row is a margin, the name filled up to the column, and the cell of the type. -/
theorem toList_line (w : Nat) (name : String) (type : Option String) :
    (line w name type).toList =
      ' ' :: ' ' :: (name.toList ++ (List.replicate (w - name.length + 2) ' ' ++ cell type)) := by
  have dash : (type.getD "-").toList = cell type := by cases type <;> rfl
  unfold line
  rw [String.toList_append, String.toList_append, String.toList_append, toList_padded, dash,
    ← List.replicate_append_replicate]
  simp only [List.append_assoc]
  rfl

/-- A name that is no wider in characters than in bytes reaches the column. -/
theorem isRow_line {names : List String} {name : String} (mem : name ∈ names)
    (ascii : name.utf8ByteSize = name.length) (type : Option String) :
    IsRow (column names) (name, type) (line (width names) name type).toList := by
  have fits : name.length ≤ width names := ascii ▸ utf8ByteSize_le_width mem
  refine ⟨width names - name.length + 2, Nat.le_add_left .., ?_, toList_line ..⟩
  show 2 + name.length + (width names - name.length + 2) = width names + 4
  omega

/-! ### Lines of the text -/

theorem newline_not_mem_header {space : String} (h : '\n' ∉ space.toList) :
    '\n' ∉ (header space).toList := by
  unfold header
  split
  · decide
  · simp only [String.toList_append, List.mem_append, not_or]
    exact ⟨⟨by decide, h⟩, by decide⟩

/-- A row stays on its line if its name and its type do. -/
theorem newline_not_mem_line {name : String} {type : Option String} (w : Nat)
    (hname : '\n' ∉ name.toList) (htype : ∀ t, type = some t → '\n' ∉ t.toList) :
    '\n' ∉ (line w name type).toList := by
  have inCell : '\n' ∉ cell type := by
    rcases type with - | t
    · decide
    · exact htype t rfl
  have blank : '\n' ≠ ' ' := by decide
  rw [toList_line]
  simp only [List.mem_cons, List.mem_append, List.mem_replicate, not_or, not_and]
  exact ⟨blank, blank, hname, fun _ => blank, inCell⟩

/-- The text is split into the lines that it was joined from. -/
theorem splitOn_toText {r : Report} (h : ∀ line ∈ r.lines, '\n' ∉ line.toList) :
    Text.splitOn '\n' r.toText.toList = r.lines.map String.toList := by
  have parts : ∀ part ∈ r.lines.map String.toList, '\n' ∉ part := by
    intro part hpart
    obtain ⟨line, hline, rfl⟩ := List.mem_map.1 hpart
    exact h line hline
  unfold toText Text.joinWith
  rw [String.toList_ofList]
  exact Text.splitOn_intercalate (List.cons_ne_nil _ _) parts

/-- The lines behind the header are those of the routes, in order. -/
theorem lines_ofRoutes (g : GeneratedRoutes) :
    (ofRoutes g).lines = header g.space ::
      g.table.entries.map fun route => line (width g.table.names) route.1 route.2 := by
  have rows : g.table.entries.map (fun route => line (width g.table.names) route.1 route.2) =
      g.table.names.map fun name =>
        line (width g.table.names) name (g.table.typed.lookup name) := by
    rw [g.table.entries_eq, List.map_map]
    rfl
  rw [rows]
  rfl

/-! ### The report of a pass -/

/-- The report of a pass loses nothing.  The keys of its types are some of its routes, in order;
the routes, each with the type that is found for it, are the table.  If no line is broken from
inside, the text is the header and a row for each route, and all types begin at one column. -/
theorem report_of_generated {g : Generator} {c : Catalog} {cancel : Cancellation} {sink : Sink}
    {output : Output} {routes : GeneratedRoutes}
    (h : (g.run c cancel sink output).outcome = .generated routes) :
    ∃ r, ofOutcome? (g.run c cancel sink output).outcome = some r ∧
      r.space = routes.space ∧
      (r.types.map Prod.fst).Sublist r.routes ∧
      r.routes.map (fun name => (name, r.types.lookup name)) = routes.table.entries ∧
      ('\n' ∉ r.space.toList → (∀ type ∈ r.types.map Prod.snd, '\n' ∉ type.toList) →
        ∃ rows column,
          Text.splitOn '\n' r.toText.toList = (header r.space).toList :: rows ∧
          List.Forall₂ (IsRow column) routes.table.entries rows) := by
  have valid := Generator.valid_of_generated h
  refine ⟨ofRoutes routes, ?_, rfl, routes.table.typed_sublist, routes.table.entries_eq.symm, ?_⟩
  · rw [h]
    rfl
  intro unbrokenSpace unbrokenTypes
  have member {route : String × Option String} (hroute : route ∈ routes.table.entries) :
      route.1 ∈ routes.table.names := List.mem_map_of_mem hroute
  -- a row breaks only in its type: the name has no line break, being valid
  have unbroken : ∀ line ∈ (ofRoutes routes).lines, '\n' ∉ line.toList := by
    intro line hline
    rw [lines_ofRoutes] at hline
    rcases List.mem_cons.1 hline with rfl | hline
    · exact newline_not_mem_header unbrokenSpace
    · obtain ⟨route, hroute, rfl⟩ := List.mem_map.1 hline
      refine newline_not_mem_line _ ((valid _ (member hroute)).not_mem (by decide)) ?_
      intro type typed
      refine unbrokenTypes type (List.mem_map.2 ⟨(route.1, type), ?_, rfl⟩)
      exact List.mem_filterMap.2 ⟨route, hroute, by rw [typed]; rfl⟩
  have text := splitOn_toText unbroken
  rw [lines_ofRoutes, List.map_cons] at text
  refine ⟨_, column routes.table.names, text, ?_⟩
  rw [List.map_map, List.forall₂_map_right_iff, List.forall₂_same]
  intro route hroute
  exact isRow_line (member hroute) (valid _ (member hroute)).utf8ByteSize_eq route.2

/-- The report of a pass over the small catalog, with routes of either kind. -/
theorem report_of_generated_small :
    let run := Generator.run ⟨⟨"txt", [], fun _ _ => .ok ""⟩, .default⟩ .small .never .memory []
    ∃ routes r, run.outcome = .generated routes ∧ ofOutcome? run.outcome = some r ∧
      r.routes.map (fun name => (name, r.types.lookup name)) =
        [("HomePage", some "app.home.HomePage"), ("Login", some "app.auth.Login"),
          ("Help", none)] ∧
      '\n' ∉ r.space.toList ∧ (∀ type ∈ r.types.map Prod.snd, '\n' ∉ type.toList) ∧
      ∃ rows column, Text.splitOn '\n' r.toText.toList = (header r.space).toList :: rows ∧
        List.Forall₂ (IsRow column) routes.table.entries rows := by
  intro run
  have evaluated : (run.outcome.generated?.map fun routes => (routes.space, routes.table.entries)) =
      some ("app", [("HomePage", some "app.home.HomePage"), ("Login", some "app.auth.Login"),
        ("Help", none)]) := by decide +kernel
  -- the evaluated table rules out every outcome but the third
  rcases h : run.outcome with - | - | routes | - | -
  case generated =>
    rw [h] at evaluated
    obtain ⟨space, entries⟩ := Prod.mk.inj (Option.some.inj evaluated)
    obtain ⟨r, (found : ofOutcome? run.outcome = some r), sameSpace, -, table, text⟩ :=
      report_of_generated h
    rw [h] at found
    obtain rfl : ofRoutes routes = r := Option.some.inj found
    have unbrokenSpace : '\n' ∉ (ofRoutes routes).space.toList := by
      rw [sameSpace, space]
      decide
    have unbrokenTypes : ∀ type ∈ (ofRoutes routes).types.map Prod.snd, '\n' ∉ type.toList := by
      show ∀ type ∈ routes.table.typed.map Prod.snd, '\n' ∉ type.toList
      unfold RouteTable.typed
      rw [entries]
      decide
    exact ⟨routes, ofRoutes routes, rfl, rfl, table.trans entries, unbrokenSpace, unbrokenTypes,
      text unbrokenSpace unbrokenTypes⟩
  all_goals
    rw [h] at evaluated
    cases evaluated

example : toText ⟨"app", ["HomePage", "Help"], [("HomePage", "app.home.HomePage")]⟩ =
    "Routes (app)\n  HomePage  app.home.HomePage\n  Help      -" := by decide +kernel

end Report

end RouteRegistry
