/-
RouteRegistry/Diagnostic.lean

The messages of a pass.  A `Diagnostic` has a stable code, the severity that
goes with it, a text and possibly a place.  The functions after it word the
five rules; nothing else in the library words a diagnostic.
-/
import RouteRegistry.Declaration

namespace RouteRegistry

/-- How much a diagnostic weighs: an error fails the command, a warning does not. -/
inductive Severity where
  | error
  | warning
  deriving DecidableEq, Inhabited

/-- The word in front of a printed diagnostic. -/
def Severity.label : Severity → String
  | .error => "error"
  | .warning => "warning"

/-- The rules a pass can report against. -/
inductive DiagnosticCode where
  /-- The configuration suffix is missing or blank. -/
  | missingSuffix
  /-- An extra route's name is no route name. -/
  | invalidRouteName
  /-- An extra route's name is already a route. -/
  | duplicateRoute
  /-- An extra route is accepted without a type. -/
  | unresolvedRouteType
  /-- An internal fault ended the pass. -/
  | generationFault
  deriving DecidableEq, Inhabited

namespace DiagnosticCode

/-- The stable code of the rule, by which users and tools refer to it. -/
def id : DiagnosticCode → String
  | .missingSuffix => "ARG001"
  | .invalidRouteName => "EXR001"
  | .duplicateRoute => "EXR002"
  | .unresolvedRouteType => "EXR003"
  | .generationFault => "RGE001"

/-- Only a missing suffix is an error; everything else leaves a result to work with. -/
def severity : DiagnosticCode → Severity
  | .missingSuffix => .error
  | _ => .warning

/-- Every rule once, in the order of their declaration. -/
def all : List DiagnosticCode :=
  [.missingSuffix, .invalidRouteName, .duplicateRoute, .unresolvedRouteType, .generationFault]

end DiagnosticCode

/-- A message of a pass, with the rule it is about and the place it is about, if that is known. -/
structure Diagnostic where
  code : DiagnosticCode
  severity : Severity
  message : String
  location : Option Location
  deriving DecidableEq, Inhabited

namespace Diagnostic

/-- A diagnostic of the severity its code has. -/
def of (code : DiagnosticCode) (message : String) (location : Option Location) : Diagnostic :=
  ⟨code, code.severity, message, location⟩

/-- The diagnostic calls for a failing exit status. -/
def isError (d : Diagnostic) : Bool := d.severity == .error

/-- Written `severity[code]: message`, followed by ` --> path:line` when the place is known. -/
def toText (d : Diagnostic) : String :=
  d.severity.label ++ "[" ++ d.code.id ++ "]: " ++ d.message ++
    match d.location with
    | some l => " --> " ++ l.toText
    | none => ""

/-! ### The wording of each rule -/

/-- A configuration marker says for no suffix which types are pages. -/
def missingSuffix (marker : String) : Option Location → Diagnostic :=
  of .missingSuffix
    ("The " ++ marker ++ " suffix parameter is required and may not be null or empty")

/-- An extra route is passed over because its name could not be a constant of the class. -/
def invalidRouteName (route : String) : Option Location → Diagnostic :=
  of .invalidRouteName
    ("The ExtraRoute route parameter must be a valid route name, ignoring invalid route '" ++
      route ++ "'")

/-- An extra route is passed over because the table has its name already. -/
def duplicateRoute (route : String) : Option Location → Diagnostic :=
  of .duplicateRoute
    ("The ExtraRoute route parameter must be unique, ignoring duplicate '" ++ route ++ "'")

/-- An extra route is taken into the list of names, but there is no type for it. -/
def unresolvedRouteType (route : String) : Option Location → Diagnostic :=
  of .unresolvedRouteType
    ("No type found for extra route '" ++ route ++
      "', it is added to AllRoutes but not to RouteTypeMap")

/-- A fault has no place in the source. -/
def generationFault (category message : String) : Diagnostic :=
  of .generationFault ("Route generation failed (" ++ category ++ "): " ++ message) none

end Diagnostic

/-- Whether the diagnostics call for a failing exit status. -/
def hasErrors (diagnostics : List Diagnostic) : Bool := diagnostics.any Diagnostic.isError

end RouteRegistry
