/-
RouteRegistry/Project/Pass.lean

One generation pass over the Java sources of a project, kept in memory.

The pass needs settings and a scan, each of which can fail; what was tried is
told with the failure.  The generated file goes where the caller says, or else
where the settings say, or else beside the file of the type that carries the
configuration marker.
-/
import RouteRegistry.Config.Load
import RouteRegistry.Pass
import RouteRegistry.Project.Scan
import RouteRegistry.RoutesClass
import RouteRegistry.SourceCatalog

namespace RouteRegistry

/-- A failure and what was tried when it happened. -/
structure ProjectFailure where
  attempt : String
  failure : Failure
  deriving DecidableEq, Inhabited

/-- A finished pass over a project. -/
structure ProjectPass where
  root : Path
  config : Config
  files : List Source.FileModel
  run : Run

namespace ProjectPass

/-! ### Running -/

/-- The settings in the file given, or else the project's own. -/
def configOf (d : Disk) (root : Path) (configFile : Option Path) :
    Except ProjectFailure Config :=
  match configFile with
  | some file => (Config.load d file).mapError fun f => ⟨"failed to load " ++ file.text, f⟩
  | none =>
    (Config.loadFor d root).mapError fun f => ⟨"failed to load configuration in " ++ root.text, f⟩

/-- The generator that a project's configuration asks for. -/
def generatorOf (config : Config) : Generator := ⟨RoutesClass.emitter, config.markers⟩

/-- The pass over the files. -/
def ofFiles (root : Path) (config : Config) (files : List Source.FileModel) : ProjectPass :=
  ⟨root, config, files,
    (generatorOf config).run (SourceCatalog.ofModels files).toCatalog .never .memory []⟩

/-- A pass over the project, with the configuration that the file or the project gives.  It fails if
the configuration cannot be read or the directory not be scanned. -/
def execute (d : Disk) (root : Path) (configFile : Option Path) :
    Except ProjectFailure ProjectPass :=
  match configOf d root configFile with
  | .error e => .error e
  | .ok config =>
    match d.scan config root with
    | .error f => .error ⟨"failed to scan " ++ root.text, f⟩
    | .ok files => .ok (ofFiles root config files)

/-! ### What it found -/

/-- The catalog of the files that were scanned. -/
def catalog (p : ProjectPass) : SourceCatalog := .ofModels p.files

/-- The diagnostics of the pass call for a failing exit status. -/
def hasErrors (p : ProjectPass) : Bool := RouteRegistry.hasErrors p.run.diagnostics

/-- The type that carries the configuration marker, also when nothing was generated. -/
def carrier? (p : ProjectPass) : Option DeclId :=
  match p.run.outcome.generated? with
  | some g => some g.carrier
  | none => ((generatorOf p.config).configuration? p.catalog.toCatalog).map (·.carrier)

/-- The directory of the carrier's file. -/
def carrierDir? (p : ProjectPass) : Option Path := do
  let id ← p.carrier?
  let origin ← (← p.catalog.types.get? id).origin
  some (p.root.join origin.path.parent)

/-- Where the generated file goes. -/
def outputDir (p : ProjectPass) (out : Option Path) : Path :=
  match out, p.config.outputDir with
  | some dir, _ => dir
  | none, some dir => p.root.join dir
  | none, none => p.carrierDir?.getD p.root

end ProjectPass

end RouteRegistry
