/-
RouteRegistry/Config/Load.lean

Reading the settings of a project from its tree of files.
-/
import RouteRegistry.Disk
import RouteRegistry.Json.Codec
import RouteRegistry.Json.Reader

namespace RouteRegistry.Config

/-- The settings that a text holds, if it is JSON of their form. -/
def ofText? (text : String) : Option Config := (Json.read? text).bind decode?

/-- The settings in a file. -/
def load (d : Disk) (file : Path) : Except Failure Config :=
  match d.readText file with
  | .error e => .error (.io e.message)
  | .ok text =>
    match ofText? text with
    | none => .error (.json "the text does not hold settings")
    | some c => c.validate

/-- The settings that a project keeps at its root, or else the default ones. -/
def loadFor (d : Disk) (root : Path) : Except Failure Config :=
  let file := root.join ⟨fileName⟩
  if d.isFile file then load d file else .ok default

end RouteRegistry.Config
