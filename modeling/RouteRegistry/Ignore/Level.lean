/-
RouteRegistry/Ignore/Level.lean

Which nodes of a tree a scan passes over.

Each directory above a node is a level with rules of its own, and the nearest
one that says something decides.  The rules of `.ignore` files come first; those
of `.gitignore` files and of a repository's `info/exclude` count inside a
repository only, up to the directory that holds it.  Where nothing is said, a
name with a dot in front is passed over.
-/
import RouteRegistry.Disk
import RouteRegistry.Ignore.Rule

namespace RouteRegistry

open Ignore

namespace Disk

/-! ### Levels -/

/-- A directory above a node, with the text by which its rules know the node. -/
structure Level where
  dir : Place
  path : List Char

/-- The text without one `./` at its front. -/
def lessHere (s : List Char) : List Char := (Text.stripStart? ['.', '/'] s).getD s

/-- The text by which the rules of a directory know a path.  Of the `./` at the front one does not
count for the directory and two do not count for the path; the directory's text is then taken off
the path, if it is there. -/
def knownAs (dir path : List Char) : List Char :=
  let base := lessHere dir
  let full := lessHere (lessHere path)
  if (Path.mk (String.ofList base)).components = [.here] ∨ '/' ∉ full then full
  else
    match Text.stripStart? base full with
    | some rest => (Text.stripStart? ['/'] rest).getD rest
    | none => full

/-- The levels of the node to which the names lead from `dir`, the directory with the path `root`,
nearest first.  Above that directory a node is known by the names that lead to it. -/
def levels (root : Path) (dir : Place) (names : List String) : List Level :=
  let text (names : List String) := (root.below names).text.toList
  ((List.range names.length).reverse.map fun n =>
      ⟨dir ++ names.take n, knownAs (text (names.take n)) (text names)⟩) ++
    (List.range dir.length).reverse.map fun n =>
      ⟨dir.take n, (Text.joinWith "/" (dir.drop n ++ names)).toList⟩

/-- The rules of the file with these names below the directory; none if it cannot be read. -/
def rulesBelow (d : Disk) (dir : Place) (names : List String) : List Rule :=
  match d.contentBelow dir names with
  | .ok content => rulesOf content
  | .error _ => []

/-- Whether the directory holds a repository. -/
def isRepository (d : Disk) (dir : Place) : Bool :=
  d.existsBelow dir [".git"] || d.existsBelow dir [".jj"]

/-- The levels as far as one holds a repository, that one with them; none if none does. -/
def repositoryLevels (d : Disk) (ls : List Level) : List Level :=
  if ls.any fun l => d.isRepository l.dir then
    let inner := ls.takeWhile fun l => !d.isRepository l.dir
    inner ++ (ls.drop inner.length).take 1
  else []

/-- The first line of a file. -/
def firstLine? (d : Disk) (base : Place) (p : Path) : Option (List Char) :=
  match contentOf (d.spotBelow base p.steps) with
  | .ok content => (textLines content).head?
  | .error _ => none

/-- What the `.git` file of a linked work tree names: a directory with notes about the tree. -/
def linkedNotes? (d : Disk) (dir : Place) : Option Path := do
  let line ← d.firstLine? dir ⟨".git"⟩
  some ⟨String.ofList (← Text.stripStart? "gitdir: ".toList line)⟩

/-- Where the notes about a linked work tree say that the repository is kept. -/
def linkedRepository? (d : Disk) (dir : Place) : Option Path := do
  let notes ← d.linkedNotes? dir
  let common ← d.firstLine? d.workDir (notes.join ⟨"commondir"⟩)
  let repository : Path := ⟨String.ofList common⟩
  some (if common.head? = some '.' then notes.join repository else repository)

/-- The rules that a repository keeps outside of the files under its care. -/
def excludeRules (d : Disk) (dir : Place) : List Rule :=
  if endsAtFile (d.spotBelow dir [.name ".git"]) then
    match d.linkedRepository? dir with
    | some repository =>
      match contentOf (d.spot (repository.join ⟨"info/exclude"⟩)) with
      | .ok content => rulesOf content
      | .error _ => []
    | none => []
  else d.rulesBelow dir [".git", "info", "exclude"]

/-! ### Verdicts -/

/-- What the nearest level says by its rules. -/
def levelVerdict (rulesAt : Place → List Rule) (isDir : Bool) (ls : List Level) : Option Verdict :=
  ls.findSome? fun l => verdict (rulesAt l.dir) (String.ofList l.path).toUTF8.toList isDir

/-- What the ignore files at the levels of a node say of it. -/
def ignoreVerdict (d : Disk) (ls : List Level) (isDir : Bool) : Option Verdict :=
  -- a file of the scanner's own wins at any level over all that belong to a repository
  let inner := d.repositoryLevels ls
  ((levelVerdict (fun dir => d.rulesBelow dir [".ignore"]) isDir ls).or
    (levelVerdict (fun dir => d.rulesBelow dir [".gitignore"]) isDir inner)).or
    (levelVerdict d.excludeRules isDir inner)

/-- The last of the names begins with a dot. -/
def isHidden (names : List String) : Bool := names.getLast?.any fun n => n.toList.head? = some '.'

/-- Whether a scan of `dir`, the directory with the path `root`, passes over the node to which the
names lead, and thus over all that is below it. -/
def isSkipped (d : Disk) (root : Path) (dir : Place) (names : List String) : Bool :=
  match d.ignoreVerdict (levels root dir names) (d.node? (dir ++ names) == some .dir) with
  | some .ignore => true
  | some .keep => false
  | none => isHidden names

end Disk

end RouteRegistry
