/-
RouteRegistry/Project/Scan.lean

The Java sources of a project.

A scan finds every Java file below the root that is not generated, not excluded
by the settings and not passed over on the way down from the root, in the order
of their paths.  Files that are no text are left out.  Whether a file is found
depends on the file and on what stands around the directories above it only.
-/
import RouteRegistry.Config
import RouteRegistry.Ignore.Level
import RouteRegistry.Source.Tree.Reader

namespace RouteRegistry

/-! ### Kinds of files -/

namespace Path

/-- The extension is that of Java sources, in lower case. -/
def isJavaSource (p : Path) : Bool := p.extension? == some "java"

/-- The output of an earlier pass. -/
def isGeneratedSource (p : Path) : Bool := p.fileName?.any fun n => Text.endsWith n ".g.java"

end Path

/-! ### Finding sources -/

namespace Disk

/-- The names from the directory down to the place, if it is below. -/
def namesBelow? (dir p : Place) : Option (List String) :=
  if dir.isPrefixOf p ∧ dir ≠ p then some (p.drop dir.length) else none

/-- Whether a scan of `dir`, the directory with the path `root`, gets as far as the names lead. -/
def isReached (d : Disk) (root : Path) (dir : Place) (names : List String) : Bool :=
  (List.range names.length).all fun n => !d.isSkipped root dir (names.take (n + 1))

/-- A directory written as a dash stands for the standard input, where there are no files. -/
def isStandardInput (p : Path) : Bool := p.components == [.name "-"]

/-- A Java source that is not generated and that the configuration does not exclude. -/
def isSource (config : Config) (p : Path) : Bool :=
  p.isJavaSource && !p.isGeneratedSource && !config.isExcluded p

/-- The names that lead to the sources below the directory with the path `root`. -/
def sourceNames (d : Disk) (config : Config) (root : Path) (dir : Place) : List (List String) :=
  (d.nodes.filterMap fun e => namesBelow? dir e.1).filter fun names =>
    isSource config (.ofNames names) && endsAtFile (d.spotBelow dir (names.map .name)) &&
      d.isReached root dir names

/-- The sources below the directory with their text, in the order of their paths. -/
def sources (d : Disk) (config : Config) (root : Path) (dir : Place) : List (Path × String) :=
  ((d.sourceNames config root dir).filterMap fun names =>
    match d.contentBelow dir names with
    | .error _ => none
    | .ok content =>
      match textOf content with
      | .error _ => none
      | .ok text => some (Path.ofNames names, text)).mergeSort fun a b => !b.1.precedes a.1

/-- The models of the sources of a project. -/
def scan (d : Disk) (config : Config) (root : Path) : Except Failure (List Source.FileModel) :=
  match d.dirPlace? root with
  | none => .error (.io ("project root " ++ root.text ++ " is not a directory"))
  | some dir =>
    .ok (if isStandardInput root then []
      else (d.sources config root dir).map fun s => Source.FileModel.read s.1 s.2)

end Disk

end RouteRegistry
