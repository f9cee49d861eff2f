/-
RouteRegistry/Config.lean

The settings of a project: the names of its markers, where the generated file
goes, and which parts of the tree are left out of the scan.
-/
import RouteRegistry.Fault
import RouteRegistry.MarkerNames

namespace RouteRegistry

/-- What a project can configure: the names of its markers, where the class goes, and what the scan
leaves out. -/
structure Config where
  markers : MarkerNames
  /-- Where the generated file is written, relative to the project root. -/
  outputDir : Option Path
  /-- Path prefixes, relative to the project root, that the scan leaves out. -/
  exclude : List Path
  deriving DecidableEq, Inhabited

namespace Config

/-- What holds where no file says otherwise. -/
def default : Config := ⟨.default, none, []⟩

/-- The name of a project's own settings file. -/
def fileName : String := "routegen.json"

/-- Whether an exclude prefix covers the path, compared by whole components. -/
def isExcluded (c : Config) (relative : Path) : Bool := c.exclude.any relative.startsWith

/-! ### Validation -/

/-- Whether a marker could be recognised by these names. -/
def usable (names : List String) : Bool := !names.isEmpty && !names.any Text.isBlank

/-- The complaint about a group of marker names that has none to offer. -/
def unusable (group : String) : Failure :=
  .config ("markers." ++ group ++ " must list at least one non-blank name")

/-- The settings, if each marker has at least one name and none of its names is blank. -/
def validate (c : Config) : Except Failure Config :=
  if !usable c.markers.configuration then .error (unusable "configuration")
  else if !usable c.markers.extraRoute then .error (unusable "extra_route")
  else if !usable c.markers.ignore then .error (unusable "ignore")
  else .ok c

end Config

end RouteRegistry
