/-
RouteRegistry/RoutesClass.lean

The generated Java class.

`RoutesClass.lines` lists the lines of the class `Routes` for a namespace and a
route table: a constant for each route, the list of all of them, and the map
from the typed ones to their types.  `RoutesClass.emitter` renders them, each
line ended by a line feed.
-/
import RouteRegistry.Emitter
import RouteRegistry.Source.Escape

namespace RouteRegistry.RoutesClass

/-- Java's keywords and literal words, `_`, the members of the class itself, and `java`, which as
a field would hide the package that the class refers to. -/
def reserved : List String :=
  ["abstract", "assert", "boolean", "break", "byte", "case", "catch", "char", "class", "const",
    "continue", "default", "do", "double", "else", "enum", "extends", "final", "finally", "float",
    "for", "goto", "if", "implements", "import", "instanceof", "int", "interface", "long",
    "native", "new", "package", "private", "protected", "public", "return", "short", "static",
    "strictfp", "super", "switch", "synchronized", "this", "throw", "throws", "transient", "try",
    "void", "volatile", "while", "true", "false", "null", "_", "AllRoutes", "RouteTypeMap", "java"]

/-! ### The parts of the class -/

/-- The package declaration; the default package has none. -/
def packageLines (space : String) : List String :=
  if space = "" then [] else ["package " ++ space ++ ";"]

/-- The declaration of the constant that holds the name of a route. -/
def constantLine (route : String) : String :=
  "    public static final String " ++ route ++ " = " ++ Source.quote route ++ ";"

/-- The names one below the other, a comma after each but the last. -/
def elementLines : List String → List String
  | [] => []
  | [route] => ["        " ++ route]
  | route :: rest => ("        " ++ route ++ ",") :: elementLines rest

/-- The declaration of the list of all routes, on one line if there are none. -/
def listLines (routes : List String) : List String :=
  if routes = [] then
    ["    public static final java.util.List<String> AllRoutes = java.util.List.of();"]
  else
    "    public static final java.util.List<String> AllRoutes = java.util.List.of(" ::
      elementLines routes ++ ["    );"]

/-- The statement that enters a route and its type into the map. -/
def putLine (route type : String) : String :=
  "        routeTypes.put(" ++ Source.quote route ++ ", " ++ Source.quote type ++ ");"

/-- The class line by line: its constants, the list of the routes, and the map of their types. -/
def lines (space : String) (t : RouteTable) : List String :=
  ["// <auto-generated/>"] ++ packageLines space ++
  ["",
    "public final class Routes \x7b",
    "    private Routes() \x7b",
    "    \x7d"] ++
  (if t.names = [] then [] else [""]) ++ t.names.map constantLine ++
  [""] ++ listLines t.names ++
  ["",
    "    public static final java.util.Map<String, String> RouteTypeMap;",
    "",
    "    static \x7b",
    "        java.util.Map<String, String> routeTypes = new java.util.LinkedHashMap<>();"] ++
  t.typed.map (fun e => putLine e.1 e.2) ++
  ["        RouteTypeMap = java.util.Collections.unmodifiableMap(routeTypes);",
    "    \x7d",
    "\x7d"]

/-- The lines, each followed by a line feed. -/
def unlines (ls : List String) : String :=
  String.ofList (ls.flatMap fun l => l.toList ++ ['\n'])

/-- The text of the class. -/
def render (space : String) (t : RouteTable) : String := unlines (lines space t)

/-- Writes the table as a Java class; that never fails. -/
def emitter : Emitter := ⟨"java", reserved, fun space t => .ok (render space t)⟩

end RouteRegistry.RoutesClass
