/-
RouteRegistry/Report.lean

The routes report: what a pass found, for reading and as JSON.

`Report.toText` gives one line to the header and one to each route, the types in
one column.  The column is as wide as the longest name has bytes in UTF-8, and a
name is filled up to it by characters; route names are ASCII, so the two agree.
-/
import RouteRegistry.Pass
import RouteRegistry.Json.Value

namespace RouteRegistry

/-- The routes of a namespace in order, and the types of those that have one. -/
structure Report where
  space : String
  routes : List String
  types : List (String × String)
  deriving DecidableEq, Inhabited

namespace Report

/-- The report on generated routes: the names in the order of the table, and those with a type. -/
def ofRoutes (g : GeneratedRoutes) : Report := ⟨g.space, g.table.names, g.table.typed⟩

/-- The report of a pass that generated something. -/
def ofOutcome? (o : Outcome) : Option Report := o.generated?.map ofRoutes

/-! ### The report as text -/

/-- The bytes of the longest name. -/
def width (names : List String) : Nat := names.foldl (fun w n => max w n.utf8ByteSize) 0

/-- The name with blanks after it, up to `w` characters. -/
def padded (w : Nat) (name : String) : String :=
  String.ofList (name.toList ++ List.replicate (w - name.length) ' ')

/-- The first line names the package. -/
def header (space : String) : String :=
  if space = "" then "Routes (default package)" else "Routes (" ++ space ++ ")"

/-- A route's line; a dash stands for a missing type. -/
def line (w : Nat) (name : String) (type : Option String) : String :=
  "  " ++ padded w name ++ "  " ++ type.getD "-"

/-- One line for each route below the header, with its type if it has one. -/
def lines (r : Report) : List String :=
  header r.space :: r.routes.map fun n => line (width r.routes) n (r.types.lookup n)

/-- The report as it is printed on a terminal. -/
def toText (r : Report) : String := Text.joinWith "\n" r.lines

/-! ### The report as JSON -/

/-- The report as JSON, under the names that the generated class uses as well. -/
def encode (r : Report) : Json :=
  .record [("namespace", .str r.space), ("all_routes", .strings r.routes),
    ("route_type_map", .record (r.types.map fun t => (t.1, .str t.2)))]

end Report

end RouteRegistry
