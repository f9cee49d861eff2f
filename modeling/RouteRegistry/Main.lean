/-
RouteRegistry/Main.lean

The program on a real system.

`Program.run` works on a tree of files.  Here that tree is read from the system
as far as a command looks at it: the paths it names with every link on their
way, the project with all that is below its root, and the ignore files of the
directories above.  What the command changed is then done to the system.
-/
import RouteRegistry.Disk.Difference
import RouteRegistry.Program
import Std.Time.DateTime.Timestamp
import Std.Time.Format

namespace RouteRegistry.Program

/-! ### Reading the tree -/

/-- The place as the operating system spells it. -/
def systemPath (p : Place) : String := "/" ++ "/".intercalate p

/-- The place that an absolute path of the operating system spells. -/
def placeOfText (text : String) : Place := (text.splitOn "/").filter (· != "")

/-- Files whose content a command may look at. -/
def isRead (name : String) : Bool :=
  Text.endsWith name ".java" || [".ignore", ".gitignore", ".git", "exclude", "commondir"].contains name

/-- The node at the place, if there is one; a link that leads nowhere leads to itself. -/
def readNode (place : Place) (withContent : Bool) : IO (Option Node) := do
  match place.getLast? with
  | none => return none
  | some name =>
    try
      let dir ← IO.FS.realPath (systemPath place.dropLast)
      match (← (dir / name).symlinkMetadata).type with
      | .dir => return some .dir
      | .symlink =>
        let target ← (IO.FS.realPath (systemPath place)).toBaseIO
        return some (.link ⟨(target.toOption.map toString).getD (systemPath place)⟩)
      | .file =>
        if withContent || isRead name then
          return some (.file (← IO.FS.readBinFile (systemPath place)))
        else return some (.file .empty)
      | .other => return none
    catch _ => return none

/-- Adds the node at the place. -/
def addNode (d : Disk) (place : Place) : IO Disk := do
  if (d.node? place).isSome then return d
  match ← readNode place true with
  | some node => return d.put place node
  | none => return d

/-- Adds what the steps lead through. -/
partial def addSteps (d : Disk) (here : Place) : List Component → IO Disk
  | [] => return d
  | .root :: rest => addSteps d [] rest
  | .here :: rest => addSteps d here rest
  | .up :: rest => addSteps d here.dropLast rest
  | .name n :: rest => do
    let place := here ++ [n]
    let d ← addNode d place
    match d.node? place with
    | some (.link target) =>
      if target.text = systemPath place then return d else addSteps d here (target.steps ++ rest)
    | some _ => addSteps d place rest
    | none => return d

/-- The disk with all that a walk along the path looks at. -/
def addPath (d : Disk) (p : Path) : IO Disk := addSteps d d.workDir p.steps

/-- Adds the ignore files of the directory and what tells that it holds a repository. -/
def addLevel (d : Disk) (dir : Place) : IO Disk := do
  let names := [[".ignore"], [".gitignore"], [".jj"], [".git", "info", "exclude"]]
  let d ← names.foldlM (fun d ns => addSteps d dir (ns.map .name)) d
  let d ← match d.linkedNotes? dir with
    | some notes => addPath d (notes.join ⟨"commondir"⟩)
    | none => pure d
  match d.linkedRepository? dir with
  | some repository => addPath d (repository.join ⟨"info/exclude"⟩)
  | none => return d

/-- Adds all that is below the directory, except for what a repository keeps of its own. -/
partial def addBelow (d : Disk) (dir : Place) : IO Disk := do
  let d ← addLevel d dir
  let entries ← (do return (← (← IO.FS.realPath (systemPath dir)).readDir) : IO _).toBaseIO
  (entries.toOption.getD #[]).foldlM (fun d entry => do
    let place := dir ++ [entry.fileName]
    match ← readNode place false with
    | none => return d
    | some (.link target) => addPath (d.put place (.link target)) target
    | some .dir =>
      let d := if (d.node? place).isSome then d else d.put place .dir
      if entry.fileName = ".git" || entry.fileName = ".jj" then return d else addBelow d place
    | some (.file content) =>
      return if (d.node? place).isSome then d else d.put place (.file content)) d

/-- The project of the command and the other paths it names. -/
def pathsOf (i : Invocation) : Path × List Path :=
  let log := i.logDir.toList ++ i.logDir.toList.map (·.join ⟨"."⟩)
  match i.command with
  | .generate o => (o.path, [o.path.join ⟨Config.fileName⟩] ++ o.out.toList ++ o.config.toList ++ log)
  | .routes o => (o.path, [o.path.join ⟨Config.fileName⟩] ++ o.config.toList ++ log)

/-- The directory that the command is going to write into. -/
def outputDir? (d : Disk) (c : Command) : Option Path :=
  match c with
  | .routes _ => none
  | .generate o =>
    match ProjectPass.execute d o.path o.config with
    | .ok pass => some (pass.outputDir o.out)
    | .error _ => none

/-- The tree as far as the command looks at it. -/
def treeFor (today : String) (workDir : Place) (i : Invocation) : IO Disk := do
  let (project, others) := pathsOf i
  let d ← (project :: others).foldlM addPath ⟨[], workDir⟩
  let d ← i.logDir.toList.foldlM (fun d dir => addPath d (dir.join ⟨i.command.name ++ "." ++ today⟩)) d
  let d ← match d.dirPlace? project with
    | none => pure d
    | some dir =>
      let above := (List.range dir.length).map dir.take
      let d ← above.foldlM addLevel d
      addBelow d dir
  match outputDir? d i.command with
  | none => return d
  | some dir => addPath d (dir.join ⟨RoutesClass.emitter.fileId⟩)

/-! ### Doing the changes -/

/-- Does to the real tree what was done to the disk. -/
def perform : Change → IO Unit
  | .makeDir place => IO.FS.createDirAll (systemPath place)
  | .write place content => IO.FS.writeBinFile (systemPath place) content
  | .remove place => IO.FS.removeFile (systemPath place)

/-- The day by universal time. -/
def today : IO String := do
  let now ← Std.Time.Timestamp.now
  return (Std.Time.PlainDate.ofEpochDay now.toDaysSinceUnixEpoch).format "uuuu-MM-dd"

end RouteRegistry.Program

open RouteRegistry in
/-- Reads what a run can look at, runs the program on it, carries out the changes and prints. -/
def main (args : List String) : IO UInt32 := do
  let workDir := Program.placeOfText (toString (← IO.FS.realPath (← IO.currentDir)))
  let today ← Program.today
  let before ← match CommandLine.read args with
    | .invoke i => Program.treeFor today workDir i
    | _ => pure ⟨[], workDir⟩
  let ending := Program.run today args before
  (before.changes ending.disk).forM Program.perform
  IO.print ending.stdout
  IO.eprint ending.stderr
  return ending.exitCode.toUInt32
